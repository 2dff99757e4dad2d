import Offside.Lexer
import Offside.Tokenize

/-!
What one step of the lexer yields: which items end the stream, how the layout tokens follow the
open levels, and how many tokens there can be for each character taken.

The layout tokens are replayed by a counter that gives up when a level is closed that is not
open. A step replays to the number of levels that it leaves open.
-/

namespace Offside

namespace LexItem

/-- An item that nothing follows: the end of input or a fatal error. -/
def isTerminal : LexItem → Bool
  | .token found => found.kind = .endOfInput
  | .error found => found.isFatal

def isIndent : LexItem → Bool
  | .token found => found.kind = .indent
  | .error _ => false

def isDedent : LexItem → Bool
  | .token found => found.kind = .dedent
  | .error _ => false

/-- An item that neither opens or closes a level nor ends the stream. -/
def isPlain (item : LexItem) : Bool :=
  !item.isTerminal && !item.isIndent && !item.isDedent

end LexItem

/-! ## Streams of items -/

namespace LexStream

/-- The stream ends with its only terminal item. -/
def Terminated (items : List LexItem) : Prop :=
  ∃ before last, items = before ++ [last] ∧ last.isTerminal = true ∧
    ∀ item ∈ before, item.isTerminal = false

def Endless (items : List LexItem) : Prop :=
  ∀ item ∈ items, item.isTerminal = false

/-- The number of levels open after some items, if none of them closes a level that is not
open. -/
def levelsAfter? : Nat → List LexItem → Option Nat
  | depth, [] => some depth
  | depth, item :: items =>
    if item.isIndent then levelsAfter? (depth + 1) items
    else if item.isDedent then
      if depth = 0 then none else levelsAfter? (depth - 1) items
    else levelsAfter? depth items

theorem Terminated.ne_nil {items : List LexItem} (terminated : Terminated items) :
    items ≠ [] := by
  obtain ⟨before, last, rfl, _, _⟩ := terminated
  simp

theorem Terminated.prepend {before items : List LexItem} (endless : Endless before)
    (terminated : Terminated items) : Terminated (before ++ items) := by
  obtain ⟨middle, last, rfl, terminal, earlier⟩ := terminated
  refine ⟨before ++ middle, last, by simp, terminal, ?_⟩
  intro item member
  rcases List.mem_append.mp member with inBefore | inMiddle
  · exact endless item inBefore
  · exact earlier item inMiddle

/-- A stream that goes on after an item goes on after one that is not terminal. -/
theorem Terminated.tail {item : LexItem} {items : List LexItem}
    (terminated : Terminated (item :: items)) (more : items ≠ []) :
    item.isTerminal = false ∧ Terminated items := by
  obtain ⟨before, last, equality, terminal, earlier⟩ := terminated
  cases before with
  | nil =>
    injection equality with _ tailEquality
    exact absurd tailEquality more
  | cons first before =>
    injection equality with headEquality tailEquality
    refine ⟨?_, before, last, tailEquality, terminal, ?_⟩
    · rw [headEquality]
      exact earlier first List.mem_cons_self
    · intro other member
      exact earlier other (List.mem_cons_of_mem _ member)

/-- A terminal item is the last of its stream. -/
theorem Terminated.eq_nil_of_isTerminal {item : LexItem} {items : List LexItem}
    (terminated : Terminated (item :: items)) (terminal : item.isTerminal = true) :
    items = [] := by
  cases items with
  | nil => rfl
  | cons next items =>
    have notTerminal := (terminated.tail (List.cons_ne_nil next items)).1
    rw [terminal] at notTerminal
    contradiction

theorem Endless.append {left right : List LexItem} (leftEndless : Endless left)
    (rightEndless : Endless right) : Endless (left ++ right) := by
  intro item member
  rcases List.mem_append.mp member with inLeft | inRight
  · exact leftEndless item inLeft
  · exact rightEndless item inRight

theorem levelsAfter?_append (depth : Nat) (left right : List LexItem) :
    levelsAfter? depth (left ++ right) =
      (levelsAfter? depth left).bind fun middle => levelsAfter? middle right := by
  induction left generalizing depth with
  | nil => rfl
  | cons item left inductionHypothesis =>
    simp only [List.cons_append, levelsAfter?]
    split
    · exact inductionHypothesis _
    · split
      · split
        · rfl
        · exact inductionHypothesis _
      · exact inductionHypothesis _

/-- A stream that replays closes as many levels as it opens, but for those that were open before
and those that are open after it. -/
theorem count_of_levelsAfter? {depth after : Nat} {items : List LexItem}
    (replayed : levelsAfter? depth items = some after) :
    after + items.countP LexItem.isDedent = depth + items.countP LexItem.isIndent := by
  induction items generalizing depth with
  | nil =>
    simp only [levelsAfter?, Option.some.injEq] at replayed
    simp [replayed]
  | cons item items inductionHypothesis =>
    simp only [levelsAfter?] at replayed
    rw [List.countP_cons, List.countP_cons]
    split at replayed
    next opens =>
      have notCloses : item.isDedent = false := by
        cases item with
        | token token =>
          simp only [LexItem.isIndent, decide_eq_true_eq] at opens
          simp [LexItem.isDedent, opens]
        | error error => rfl
      have counted := inductionHypothesis replayed
      rw [if_pos opens, if_neg (by simp [notCloses])]
      omega
    next notOpens =>
      rw [if_neg notOpens]
      split at replayed
      next closes =>
        split at replayed
        next => contradiction
        next positive =>
          have counted := inductionHypothesis replayed
          rw [if_pos closes]
          omega
      next notCloses =>
        have counted := inductionHypothesis replayed
        rw [if_neg notCloses]
        omega

/-- What is replayed up to some item never closed more levels than were open. -/
theorem dedents_le_of_levelsAfter? {depth after : Nat} {items initial : List LexItem}
    (replayed : levelsAfter? depth items = some after) (isInitial : initial <+: items) :
    initial.countP LexItem.isDedent ≤ depth + initial.countP LexItem.isIndent := by
  obtain ⟨rest, rfl⟩ := isInitial
  rw [levelsAfter?_append] at replayed
  obtain ⟨middle, initialReplayed, _⟩ := Option.bind_eq_some_iff.mp replayed
  have counted := count_of_levelsAfter? initialReplayed
  omega

theorem levelsAfter?_of_plain {items : List LexItem} (depth : Nat)
    (plain : ∀ item ∈ items, item.isPlain = true) : levelsAfter? depth items = some depth := by
  induction items with
  | nil => rfl
  | cons item items inductionHypothesis =>
    have headPlain := plain item List.mem_cons_self
    simp only [LexItem.isPlain, Bool.and_eq_true, Bool.not_eq_true'] at headPlain
    simp only [levelsAfter?, headPlain.1.2, headPlain.2, Bool.false_eq_true, if_false]
    exact inductionHypothesis fun other member => plain other (List.mem_cons_of_mem _ member)

theorem endless_of_plain {items : List LexItem}
    (plain : ∀ item ∈ items, item.isPlain = true) : Endless items := by
  intro item member
  have itemPlain := plain item member
  simp only [LexItem.isPlain, Bool.and_eq_true, Bool.not_eq_true'] at itemPlain
  exact itemPlain.1.1

theorem levelsAfter?_replicate_dedent (levels depth : Nat) {item : LexItem}
    (closes : item.isDedent = true) (notOpens : item.isIndent = false) :
    levelsAfter? (depth + levels) (List.replicate levels item) = some depth := by
  induction levels with
  | zero => rfl
  | succ levels inductionHypothesis =>
    simp only [List.replicate_succ, levelsAfter?, closes, notOpens, if_true, Bool.false_eq_true,
      if_false]
    rw [if_neg (by omega), show depth + (levels + 1) - 1 = depth + levels by omega]
    exact inductionHypothesis

def tokenCount (items : List LexItem) : Nat :=
  (items.filterMap LexItem.token?).length

@[simp]
theorem tokenCount_append (left right : List LexItem) :
    tokenCount (left ++ right) = tokenCount left + tokenCount right := by
  simp [tokenCount]

@[simp]
theorem tokenCount_token (found : Token) (items : List LexItem) :
    tokenCount (.token found :: items) = tokenCount items + 1 := by
  simp [tokenCount, LexItem.token?]

@[simp]
theorem tokenCount_error (found : LexError) (items : List LexItem) :
    tokenCount (.error found :: items) = tokenCount items :=
  rfl

theorem tokenCount_replicate_token (count : Nat) (found : Token) :
    tokenCount (List.replicate count (.token found)) = count := by
  induction count with
  | zero => rfl
  | succ count inductionHypothesis =>
    rw [List.replicate_succ, tokenCount_token, inductionHypothesis]

@[simp]
theorem tokenCount_nil : tokenCount [] = 0 :=
  rfl

theorem tokenCount_map_error (errors : List LexError) :
    tokenCount (errors.map .error) = 0 := by
  induction errors with
  | nil => rfl
  | cons error errors inductionHypothesis =>
    rw [List.map_cons, tokenCount_error, inductionHypothesis]

end LexStream

/-! ## The levels of a line -/

namespace Layout

theorem line_of_eq {layout : Layout} {width : Nat} (same : width = layout.top) :
    layout.line width =
      (.ok (if layout.started then .newline else .start), { layout with started := true }) := by
  unfold line
  rw [if_pos same]

theorem line_of_gt {layout : Layout} {width : Nat} (deeper : layout.top < width) :
    layout.line width =
      (.ok .indent, { layout with started := true, levels := width :: layout.levels }) := by
  unfold line
  rw [if_neg (by omega), if_pos deeper]

def closed (layout : Layout) (width : Nat) : Layout :=
  { layout with started := true, levels := closeAbove width layout.levels }

theorem line_of_lt {layout : Layout} {width : Nat} (shallower : width < layout.top) :
    layout.line width =
      (if (layout.closed width).top = width then
        .ok (.dedent (layout.depth - (layout.closed width).depth))
      else
        .error ⟨width, (layout.closed width).top,
          layout.depth - (layout.closed width).depth⟩, layout.closed width) := by
  unfold line closed
  rw [if_neg (by omega), if_neg (by omega)]
  dsimp only
  split <;> rfl

theorem depth_closed_le (layout : Layout) (width : Nat) :
    (layout.closed width).depth ≤ layout.depth :=
  (List.dropWhile_suffix _).sublist.length_le

end Layout

/-! ## Steps -/

namespace LexState

open LexStream

/-- A bound on the tokens to come: four for each character and one for each open level. -/
def supply (state : LexState) : Nat :=
  4 * state.remaining + state.layout.depth

/-- What a step yields. The `slack` is what is left of the tokens that the taken text allows
for. -/
structure StepShape (slack : Nat) (before : LexState) (step : LexStep) : Prop where
  ending : if step.2.finished then Terminated step.1 else step.1 ≠ [] ∧ Endless step.1
  levels : levelsAfter? before.layout.depth step.1 = some step.2.layout.depth
  closed : ∀ found, .token found ∈ step.1 → found.kind = .endOfInput → step.2.layout.depth = 0
  supplied : tokenCount step.1 + slack + step.2.supply ≤ before.supply

theorem supply_of_running {state : LexState} (running : state.finished = false) :
    state.supply = 4 * (state.rest.length + 1) + state.layout.depth := by
  simp [supply, remaining, running]

/-- A step from a state that differs in what it takes from nothing but its text. -/
theorem StepShape.of_le {slack : Nat} {before middle : LexState} {step : LexStep}
    (shape : StepShape slack middle step) (sameDepth : middle.layout.depth = before.layout.depth)
    (sameEnd : middle.finished = before.finished)
    (shorter : middle.rest.length ≤ before.rest.length) : StepShape slack before step := by
  refine ⟨shape.ending, sameDepth ▸ shape.levels, shape.closed, ?_⟩
  have supplied := shape.supplied
  have fewer : middle.supply ≤ before.supply := by
    unfold supply remaining
    rw [sameDepth, sameEnd]
    split <;> omega
  omega

theorem StepShape.take {slack : Nat} {state : LexState} {split : Scan.Split} {step : LexStep}
    (shape : StepShape slack (state.take split) step) (splitOf : split.Of state.rest) :
    StepShape slack state step :=
  shape.of_le rfl rfl (length_take_le state splitOf)

theorem StepShape.weaken {slack less : Nat} {before : LexState} {step : LexStep}
    (shape : StepShape slack before step) (fewer : less ≤ slack) : StepShape less before step :=
  ⟨shape.ending, shape.levels, shape.closed, by have := shape.supplied; omega⟩

/-- A piece of text as a token, with errors after which the tokens go on. -/
theorem stepShape_yield {state : LexState} {kind : Kind} {split : Scan.Split}
    {errors : List LexError} (running : state.finished = false)
    (unstructured : kind.isStructural = false) (harmless : ∀ error ∈ errors, error.isFatal = false)
    (takes : split.Takes state.rest) : StepShape 3 state (state.yield kind split errors) := by
  have notEnd : kind ≠ .endOfInput := by
    rintro rfl
    contradiction
  have plain : ∀ item ∈ (state.yield kind split errors).1, item.isPlain = true := by
    intro item member
    rcases List.mem_cons.mp member with rfl | inErrors
    · cases kind <;> first | rfl | contradiction
    · obtain ⟨error, errorMember, rfl⟩ := List.mem_map.mp inErrors
      simp [LexItem.isPlain, LexItem.isTerminal, LexItem.isIndent, LexItem.isDedent,
        harmless error errorMember]
  refine ⟨?_, levelsAfter?_of_plain _ plain, ?_, ?_⟩
  · rw [if_neg (by simp [yield, LexState.take, running])]
    exact ⟨List.cons_ne_nil _ _, endless_of_plain plain⟩
  · intro found member isEnd
    have endless := endless_of_plain plain _ member
    simp [LexItem.isTerminal, isEnd] at endless
  · have shorter := takes.length_lt
    rw [supply_of_running running, supply_of_running (by exact running)]
    simp only [yield, tokenOf, tokenCount_token, tokenCount_map_error, LexState.take]
    omega

theorem stepShape_fail {state : LexState} (running : state.finished = false)
    (construct : Unterminated) (span : Span) : StepShape 3 state (state.fail construct span) := by
  refine ⟨⟨[], _, rfl, rfl, by simp⟩, rfl, ?_, ?_⟩
  · intro found member
    simp [fail] at member
  · rw [supply_of_running running]
    simp only [fail, tokenCount_error, tokenCount_nil, supply, remaining, if_true]
    omega

theorem stepShape_finish {state : LexState} (running : state.finished = false) :
    StepShape 3 state state.finish := by
  unfold finish
  split
  next start _ => exact stepShape_fail running _ _
  next =>
    dsimp only [Layout.finish]
    refine ⟨⟨_, _, rfl, rfl, ?_⟩, ?_, fun _ _ _ => rfl, ?_⟩
    · intro item member
      rw [List.eq_of_mem_replicate member]
      rfl
    · rw [levelsAfter?_append]
      have closing : levelsAfter? (0 + state.layout.depth)
          (List.replicate state.layout.depth (state.structural .dedent)) = some 0 :=
        levelsAfter?_replicate_dedent _ _ rfl rfl
      rw [Nat.zero_add] at closing
      rw [closing]
      rfl
    · rw [supply_of_running running]
      simp only [structural, tokenCount_append, tokenCount_replicate_token, tokenCount_token,
        tokenCount_nil, supply, remaining, if_true, Layout.depth, List.length_nil]
      omega

/-! ### Tokens -/

/-- No escape ends the tokens, however it is written. -/
theorem isFatal_of_mem_decode {position : Position} {pieces : List Scan.Spelled}
    {error : LexError} (member : error ∈ (decode position pieces).2) : error.isFatal = false := by
  induction pieces generalizing position with
  | nil => simp [decode] at member
  | cons piece pieces inductionHypothesis =>
    obtain ⟨text, piece⟩ := piece
    cases piece with
    | invalid characters =>
      simp only [decode] at member
      rcases List.mem_cons.mp member with rfl | later
      · rfl
      · exact inductionHypothesis later
    | text characters => exact inductionHypothesis member
    | char value => exact inductionHypothesis member
    | elided => exact inductionHypothesis member

theorem stepShape_stringPart {state : LexState} (running : state.finished = false)
    (start : Position) : StepShape 3 state (state.stringPart start) := by
  unfold stringPart
  split
  next rest equality =>
    refine (stepShape_yield (by exact running) rfl (by simp) ⟨by simp, ?_⟩).of_le rfl rfl
      (Nat.le_refl _)
    exact equality.symm
  next rest equality =>
    refine (stepShape_yield (by exact running) rfl (by simp) ⟨by simp, ?_⟩).of_le rfl rfl
      (Nat.le_refl _)
    exact equality.symm
  next =>
    dsimp only
    split
    next => exact stepShape_fail running _ _
    next nonempty =>
      refine stepShape_yield running rfl (fun error => isFatal_of_mem_decode)
        ⟨?_, Scan.of_stringBody state.rest⟩
      unfold Scan.stringBody at nonempty ⊢
      split at nonempty
      next => simp at nonempty
      next piece found => simp [Scan.Split.after, (Scan.takes_of_stringPiece? found).1]

theorem stepShape_characterLiteral {state : LexState} (running : state.finished = false)
    {rest : List Char} (equality : state.rest = '\'' :: rest) :
    StepShape 3 state (state.characterLiteral rest) := by
  unfold characterLiteral
  dsimp only
  split
  next after bodyRest =>
    have body := Scan.of_charBody rest
    unfold Scan.Split.Of at body
    rw [bodyRest] at body
    have takes : (⟨'\'' :: (Scan.charBody rest).text ++ ['\''], after⟩ : Scan.Split).Takes
        state.rest := by
      refine ⟨by simp, ?_⟩
      rw [equality]
      simpa [Scan.Split.Of] using body
    have harmless : ∀ error ∈ (decode (state.position.advance ['\'']) (Scan.charBody rest).value).2,
        error.isFatal = false := fun error => isFatal_of_mem_decode
    generalize decode _ _ = decoded at harmless ⊢
    obtain ⟨value, errors⟩ := decoded
    have invalid : ∀ text fault span, ∀ error ∈ errors ++
        [(⟨.invalidCharacter text fault, span⟩ : LexError)], error.isFatal = false := by
      intro text fault span error member
      rcases List.mem_append.mp member with inErrors | isLast
      · exact harmless error inErrors
      · rw [List.mem_singleton.mp isLast]
        rfl
    rcases value with _ | ⟨c, _ | ⟨other, more⟩⟩
    · exact stepShape_yield running rfl (invalid _ _ _) takes
    · exact stepShape_yield running rfl harmless takes
    · exact stepShape_yield running rfl (invalid _ _ _) takes
  next => exact stepShape_fail running _ _

theorem isStructural_ofWord (word : String) : (Kind.ofWord word).isStructural = false := by
  unfold Kind.ofWord
  split
  · rfl
  · split
    · rfl
    · split
      · rfl
      · split
        · rfl
        · split <;> rfl

theorem isStructural_evaluate (numeral : Scan.Numeral) :
    numeral.evaluate.1.isStructural = false := by
  unfold Scan.Numeral.evaluate
  split
  · rfl
  · split <;> rfl

/-- A bracket changes neither the levels nor the text, and it is no layout token. -/
theorem bracket_keeps (state : LexState) (symbol : Symbol) :
    (state.bracket symbol).1.isStructural = false ∧
      (state.bracket symbol).2.layout.depth = state.layout.depth ∧
      (state.bracket symbol).2.finished = state.finished := by
  unfold bracket
  split
  case h_6 =>
    dsimp only
    split <;> exact ⟨rfl, rfl, rfl⟩
  all_goals exact ⟨rfl, rfl, rfl⟩

theorem stepShape_plainToken {state : LexState} (running : state.finished = false) {c : Char}
    {rest : List Char} (equality : state.rest = c :: rest) :
    StepShape 3 state (state.plainToken c rest) := by
  unfold plainToken
  dsimp only
  split
  next number found =>
    refine stepShape_yield running (isStructural_evaluate number.value) ?_
      (equality ▸ Scan.takes_of_numeral? found)
    intro error member
    obtain ⟨fault, _, rfl⟩ := List.mem_map.mp member
    rfl
  next =>
    split
    next word found =>
      obtain ⟨split, _, rfl⟩ := Option.map_eq_some_iff.mp found
      exact stepShape_yield running (isStructural_ofWord _) (by simp)
        (equality ▸ Scan.takes_of_word? found)
    next =>
      split
      next symbol found =>
        obtain ⟨unstructured, sameDepth, sameEnd⟩ := bracket_keeps state symbol.value
        have sameRest := bracket_rest state symbol.value
        have takes : symbol.toSplit.Takes (state.bracket symbol.value).2.rest := by
          rw [sameRest, equality]
          exact Scan.takes_of_symbol? found
        exact (stepShape_yield (sameEnd.trans running) unstructured (by simp) takes).of_le
          sameDepth sameEnd (Nat.le_of_eq (congrArg List.length sameRest))
      next =>
        refine ⟨?_, rfl, ?_, ?_⟩
        · rw [if_neg (by simp [LexState.take, running])]
          exact ⟨List.cons_ne_nil _ _, by simp [Endless, LexItem.isTerminal]; rfl⟩
        · intro found member
          simp at member
        · rw [supply_of_running running, supply_of_running (by exact running), equality]
          simp only [tokenCount_error, tokenCount_nil, LexState.take, List.length_cons]
          omega

theorem stepShape_codeToken {state : LexState} (running : state.finished = false) :
    StepShape 3 state state.codeToken := by
  unfold codeToken
  split
  next => exact stepShape_finish running
  next rest equality =>
    refine (stepShape_fail (by exact running) _ _).take ?_
    exact (List.append_nil _).trans equality.symm
  next rest equality =>
    refine (stepShape_yield (by exact running) rfl (by simp) ⟨by simp, ?_⟩).of_le rfl rfl
      (Nat.le_refl _)
    exact equality.symm
  next rest equality =>
    refine (stepShape_yield (by exact running) rfl (by simp) ⟨by simp, ?_⟩).of_le rfl rfl
      (Nat.le_refl _)
    exact equality.symm
  next rest equality => exact stepShape_characterLiteral running equality
  next equality => exact stepShape_plainToken running equality

/-! ### Lines -/

/-- The layout tokens of a line replay to the levels after it. There are at most as many as it
closes levels, and one more. -/
theorem levelsAfter?_line (state : LexState) (layout : Layout) (width : Nat) :
    levelsAfter? layout.depth ((lineKinds (layout.line width).1).map state.structural) =
        some (layout.line width).2.depth ∧
      (lineKinds (layout.line width).1).length + (layout.line width).2.depth ≤
        layout.depth + 2 := by
  rcases Nat.lt_trichotomy width layout.top with shallower | same | deeper
  · have fewer := layout.depth_closed_le width
    have kinds : lineKinds (layout.line width).1 =
        List.replicate (layout.depth - (layout.closed width).depth) .dedent := by
      rw [Layout.line_of_lt shallower]
      dsimp only
      split <;> rfl
    have after : (layout.line width).2 = layout.closed width := by
      rw [Layout.line_of_lt shallower]
    rw [kinds, after, List.map_replicate, List.length_replicate]
    refine ⟨?_, by omega⟩
    have closing : levelsAfter?
        ((layout.closed width).depth + (layout.depth - (layout.closed width).depth))
        (List.replicate (layout.depth - (layout.closed width).depth) (state.structural .dedent)) =
        some (layout.closed width).depth :=
      levelsAfter?_replicate_dedent _ _ rfl rfl
    rwa [Nat.add_sub_cancel' fewer] at closing
  · rw [Layout.line_of_eq same]
    cases layout.started
    · exact ⟨rfl, by simp [lineKinds, layoutKinds, Layout.depth]⟩
    · exact ⟨rfl, by simp [lineKinds, layoutKinds, Layout.depth]; omega⟩
  · rw [Layout.line_of_gt deeper]
    exact ⟨rfl, by simp [lineKinds, layoutKinds, Layout.depth]; omega⟩

theorem layout_of_mem_lineKinds {result : Except IndentationFault LineLayout} {kind : Kind}
    (member : kind ∈ lineKinds result) : kind = .newline ∨ kind = .indent ∨ kind = .dedent := by
  have layoutOnly : ∀ lineLayout, kind ∈ layoutKinds lineLayout →
      kind = .newline ∨ kind = .indent ∨ kind = .dedent := by
    intro lineLayout inLine
    cases lineLayout with
    | start => exact absurd inLine List.not_mem_nil
    | newline => exact Or.inl (List.mem_singleton.mp inLine)
    | indent => exact Or.inr (Or.inl (List.mem_singleton.mp inLine))
    | dedent levels => exact Or.inr (Or.inr (List.eq_of_mem_replicate inLine))
  cases result with
  | ok lineLayout => exact layoutOnly lineLayout member
  | error fault => exact layoutOnly (.dedent fault.dedents) member

theorem ne_endOfInput_of_mem_lineKinds {result : Except IndentationFault LineLayout} {kind : Kind}
    (member : kind ∈ lineKinds result) : kind ≠ .endOfInput := by
  rintro rfl
  rcases layout_of_mem_lineKinds member with isLayout | isLayout | isLayout
  · contradiction
  · contradiction
  · contradiction

theorem tokenCount_map_structural (state : LexState) (kinds : List Kind) :
    tokenCount (kinds.map state.structural) = kinds.length := by
  induction kinds with
  | nil => rfl
  | cons kind kinds inductionHypothesis =>
    rw [List.map_cons, structural, tokenCount_token, inductionHypothesis, List.length_cons]

theorem isFatal_of_mem_lineErrors {result : Except IndentationFault LineLayout} {span : Span}
    {error : LexError} (member : error ∈ lineErrors span result) : error.isFatal = false := by
  cases result with
  | ok lineLayout => simp [lineErrors] at member
  | error fault =>
    rw [List.mem_singleton.mp member]
    rfl

theorem levelsAfter?_map_error (depth : Nat) (errors : List LexError) :
    levelsAfter? depth (errors.map .error) = some depth := by
  induction errors with
  | nil => rfl
  | cons error errors inductionHypothesis => exact inductionHypothesis

theorem endless_map_error {errors : List LexError}
    (harmless : ∀ error ∈ errors, error.isFatal = false) :
    Endless (errors.map .error) := by
  intro item member
  obtain ⟨error, errorMember, rfl⟩ := List.mem_map.mp member
  exact harmless error errorMember

/-- The items of a line before its first token of code: its layout tokens between errors. -/
theorem indentation_shape (state : LexState) :
    Endless state.indentation.1 ∧
      levelsAfter? state.layout.depth state.indentation.1 =
        some state.indentation.2.layout.depth ∧
      tokenCount state.indentation.1 + state.indentation.2.layout.depth ≤
        state.layout.depth + 2 := by
  unfold indentation
  dsimp only
  generalize state.layout.measure _ = measured
  have replayed := fun other => levelsAfter?_line other state.layout measured.width
  generalize state.layout.line measured.width = line at replayed ⊢
  obtain ⟨result, layout⟩ := line
  generalize mixedEquality :
    (if measured.mixed then [⟨.mixedIndentation, state.spanOf (Scan.leading state.rest)⟩] else [] :
      List LexError) = mixed
  have harmless : ∀ error ∈ mixed, error.isFatal = false := by
    intro error member
    rw [← mixedEquality] at member
    split at member
    · rw [List.mem_singleton.mp member]
      rfl
    · simp at member
  have ongoing : ∀ other : LexState, Endless ((lineKinds result).map other.structural) := by
    intro other item member
    obtain ⟨kind, kindMember, rfl⟩ := List.mem_map.mp member
    simpa [structural, LexItem.isTerminal, Token.structural] using
      ne_endOfInput_of_mem_lineKinds kindMember
  refine ⟨?_, ?_, ?_⟩
  · exact ((endless_map_error harmless).append (ongoing _)).append
      (endless_map_error fun error => isFatal_of_mem_lineErrors)
  · rw [levelsAfter?_append, levelsAfter?_append, levelsAfter?_map_error]
    simp only [Option.bind_some, (replayed _).1, levelsAfter?_map_error]
  · rw [tokenCount_append, tokenCount_append, tokenCount_map_error, tokenCount_map_error,
      tokenCount_map_structural]
    have bound := (replayed state).2
    dsimp only at bound ⊢
    omega

/-- The layout of a line in front of what its first token yields. -/
theorem StepShape.prepend {before middle : LexState} {items : List LexItem} {step : LexStep}
    (shape : StepShape 3 middle step) (running : before.finished = false)
    (sameEnd : middle.finished = before.finished)
    (shorter : middle.rest.length ≤ before.rest.length) (endless : Endless items)
    (replayed : levelsAfter? before.layout.depth items = some middle.layout.depth)
    (few : tokenCount items + middle.layout.depth ≤ before.layout.depth + 2) :
    StepShape 0 before (items ++ step.1, step.2) := by
  have ending := shape.ending
  have supplied := shape.supplied
  refine ⟨?_, ?_, ?_, ?_⟩
  · dsimp only
    split
    next ended =>
      rw [if_pos ended] at ending
      exact ending.prepend endless
    next goesOn =>
      rw [if_neg goesOn] at ending
      exact ⟨by simp [ending.1], endless.append ending.2⟩
  · rw [levelsAfter?_append, replayed]
    exact shape.levels
  · intro found member isEnd
    rcases List.mem_append.mp member with inItems | inStep
    · have notTerminal := endless _ inItems
      simp [LexItem.isTerminal, isEnd] at notTerminal
    · exact shape.closed found inStep isEnd
  · rw [supply_of_running running]
    rw [supply_of_running (sameEnd.trans running)] at supplied
    simp only [tokenCount_append]
    omega

theorem stepShape_lineStart {state : LexState} (running : state.finished = false) :
    StepShape 0 state state.lineStart := by
  unfold lineStart
  dsimp only
  have splitOf := Scan.of_blankLines state.rest
  split
  next => exact ((stepShape_finish (by exact running)).take splitOf).weaken (by omega)
  next =>
    obtain ⟨endless, replayed, few⟩ :=
      indentation_shape (state.take (Scan.blankLines state.rest))
    have shorter := length_indentation_le (state.take (Scan.blankLines state.rest))
    have code : StepShape 3 (state.take (Scan.blankLines state.rest)).indentation.2 _ :=
      (stepShape_codeToken (by exact running)).take (Scan.of_trivia _)
    refine StepShape.take ?_ splitOf
    exact code.prepend (by exact running) rfl shorter endless replayed few

theorem stepShape_code {state : LexState} (running : state.finished = false) :
    StepShape 0 state state.code := by
  unfold code
  split
  next =>
    exact ((stepShape_codeToken (by exact running)).take (Scan.of_wrapped state.rest)).weaken
      (by omega)
  next =>
    split
    next => exact stepShape_lineStart running
    next =>
      dsimp only
      have splitOf := Scan.of_trivia state.rest
      split
      next lineBreak found =>
        have lineOf := (Scan.takes_of_lineBreak? found).2
        refine StepShape.take ?_ splitOf
        refine (stepShape_lineStart (by exact running)).of_le rfl rfl ?_
        exact length_take_le _ lineOf
      next => exact ((stepShape_codeToken (by exact running)).take splitOf).weaken (by omega)

/-- A step of a lexer that has not ended yields items of the right shape. -/
theorem stepShape_step {state : LexState} (running : state.finished = false) :
    StepShape 0 state state.step := by
  unfold step
  split
  next start _ _ => exact (stepShape_stringPart running start).weaken (by omega)
  next => exact stepShape_code running

theorem stepShape_cancel {state : LexState} (running : state.finished = false) :
    StepShape 0 state state.cancel := by
  refine ⟨⟨[], _, rfl, rfl, by simp⟩, rfl, ?_, ?_⟩
  · intro found member
    simp [cancel] at member
  · rw [supply_of_running running]
    simp only [cancel, tokenCount_error, tokenCount_nil, supply, remaining, if_true]
    omega

end LexState

end Offside
