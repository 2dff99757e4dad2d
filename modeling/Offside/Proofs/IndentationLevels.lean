import Mathlib
import Offside.Proofs.Lexer.StepShape

/-!
The open levels as a function of the lines so far. However the lines of a text are indented, a level
stands at each width that no later line has gone back to or below. A line that returns to a width at
which no level stands counts with the width that is reported as expected.
-/

namespace Offside

/-- The positive widths, each of which is smaller than all widths behind it. -/
def strictMinima : List Nat → List Nat
  | [] => []
  | width :: later =>
    if 0 < width ∧ ∀ other ∈ later, width < other then width :: strictMinima later
    else strictMinima later

theorem strictMinima_sublist (widths : List Nat) : (strictMinima widths).Sublist widths := by
  induction widths with
  | nil => exact List.Sublist.refl _
  | cons width later inductionHypothesis =>
    rw [strictMinima]
    split
    · exact inductionHypothesis.cons_cons width
    · exact inductionHypothesis.cons width

theorem pos_of_mem_strictMinima {widths : List Nat} {width : Nat}
    (member : width ∈ strictMinima widths) : 0 < width := by
  induction widths with
  | nil => exact absurd member List.not_mem_nil
  | cons first later inductionHypothesis =>
    rw [strictMinima] at member
    split at member
    next minimal =>
      rcases List.mem_cons.mp member with rfl | isLater
      · exact minimal.1
      · exact inductionHypothesis isLater
    next => exact inductionHypothesis member

theorem strictMinima_increasing (widths : List Nat) :
    (strictMinima widths).Pairwise (· < ·) := by
  induction widths with
  | nil => exact List.Pairwise.nil
  | cons width later inductionHypothesis =>
    rw [strictMinima]
    split
    next minimal =>
      refine List.pairwise_cons.mpr ⟨fun other isLater => ?_, inductionHypothesis⟩
      exact minimal.2 other ((strictMinima_sublist later).mem isLater)
    next => exact inductionHypothesis

/-- One more width at the end is a minimum unless it is zero, and the others that remain are those
below it. -/
theorem strictMinima_append_singleton (widths : List Nat) (last : Nat) :
    strictMinima (widths ++ [last]) =
      (strictMinima widths).filter (· < last) ++ [last].filter (0 < ·) := by
  induction widths with
  | nil =>
    by_cases positive : 0 < last
    · simp [strictMinima, positive]
    · simp [strictMinima, positive]
  | cons width later inductionHypothesis =>
    have split : (0 < width ∧ ∀ other ∈ later ++ [last], width < other) ↔
        (0 < width ∧ ∀ other ∈ later, width < other) ∧ width < last := by
      simp only [List.forall_mem_append, List.forall_mem_singleton, and_assoc]
    rw [List.cons_append, strictMinima, strictMinima, inductionHypothesis]
    by_cases minimal : 0 < width ∧ ∀ other ∈ later, width < other
    · rw [if_pos minimal]
      by_cases below : width < last
      · have keeps : (width :: strictMinima later).filter (· < last) =
            width :: (strictMinima later).filter (· < last) :=
          List.filter_cons_of_pos (decide_eq_true below)
        rw [if_pos (split.mpr ⟨minimal, below⟩), keeps, List.cons_append]
      · have drops : (width :: strictMinima later).filter (· < last) =
            (strictMinima later).filter (· < last) :=
          List.filter_cons_of_neg fun isBelow => below (of_decide_eq_true isBelow)
        rw [if_neg fun both => below (split.mp both).2, drops]
    · rw [if_neg fun both => minimal (split.mp both).1, if_neg minimal]

theorem zero_cons_strictMinima_append_singleton (widths : List Nat) (last : Nat) :
    0 :: strictMinima (widths ++ [last]) =
      (0 :: strictMinima widths).filter (· < last) ++ [last] := by
  rw [strictMinima_append_singleton]
  cases last with
  | zero =>
    have noneBelow (levels : List Nat) : levels.filter (· < 0) = [] :=
      List.filter_eq_nil_iff.mpr fun level _ => by simp
    rw [noneBelow, noneBelow]
    rfl
  | succ last => simp

/-! ## Lines and what is reported of them -/

namespace LineLayout

def indents : LineLayout → Nat
  | indent => 1
  | start | newline | dedent _ => 0

def dedents : LineLayout → Nat
  | dedent levels => levels
  | start | newline | indent => 0

end LineLayout

/-- A line of code at some width, and what was reported of it. -/
structure LineCall where
  width : Nat
  report : Except IndentationFault LineLayout

namespace LineCall

def Fails (call : LineCall) : Prop :=
  ∃ fault, call.report = .error fault

/-- The width at which the line counts. -/
def effective (call : LineCall) : Nat :=
  match call.report with
  | .ok _ => call.width
  | .error fault => fault.expected

def indents (call : LineCall) : Nat :=
  match call.report with
  | .ok lineLayout => lineLayout.indents
  | .error _ => 0

def dedents (call : LineCall) : Nat :=
  match call.report with
  | .ok lineLayout => lineLayout.dedents
  | .error fault => fault.dedents

end LineCall

namespace Layout

/-- The widths of the open levels with that of width zero, the outermost first. -/
def stack (layout : Layout) : List Nat :=
  0 :: layout.levels.reverse

def call (layout : Layout) (width : Nat) : LineCall :=
  ⟨width, (layout.line width).1⟩

/-- Lines of code at the given widths, and the layout after them. -/
def lines (layout : Layout) : List Nat → List LineCall × Layout
  | [] => ([], layout)
  | width :: widths =>
    let later := (layout.line width).2.lines widths
    (layout.call width :: later.1, later.2)

theorem lines_append_singleton (layout : Layout) (widths : List Nat) (width : Nat) :
    layout.lines (widths ++ [width]) =
      ((layout.lines widths).1 ++ [(layout.lines widths).2.call width],
        ((layout.lines widths).2.line width).2) := by
  induction widths generalizing layout with
  | nil => rfl
  | cons first widths inductionHypothesis =>
    rw [List.cons_append, lines, inductionHypothesis]
    rfl

theorem map_width_lines (layout : Layout) (widths : List Nat) :
    (layout.lines widths).1.map LineCall.width = widths := by
  induction widths generalizing layout with
  | nil => rfl
  | cons width widths inductionHypothesis =>
    exact congrArg (width :: ·) (inductionHypothesis _)

/-! ## What one line does to the stack -/

variable {layout : Layout} {width : Nat}

theorem length_stack (layout : Layout) : layout.stack.length = layout.depth + 1 := by
  rw [stack, List.length_cons, List.length_reverse, depth]

theorem exists_stack_eq_append_top (layout : Layout) :
    ∃ outer, layout.stack = outer ++ [layout.top] := by
  unfold stack top
  cases layout.levels with
  | nil => exact ⟨[], rfl⟩
  | cons level levels => exact ⟨0 :: levels.reverse, by simp⟩

theorem stack_closed (layout : Layout) (width : Nat) :
    layout.stack =
      (layout.closed width).stack ++ (layout.levels.takeWhile (width < ·)).reverse := by
  change 0 :: layout.levels.reverse = 0 :: (closeAbove width layout.levels).reverse ++ _
  rw [closeAbove, List.cons_append, ← List.reverse_append, List.takeWhile_append_dropWhile]

theorem top_closed_le (layout : Layout) (width : Nat) : (layout.closed width).top ≤ width := by
  change (closeAbove width layout.levels).headD 0 ≤ width
  rw [closeAbove]
  cases remaining : layout.levels.dropWhile (width < ·) with
  | nil => exact Nat.zero_le width
  | cons level levels =>
    have notAbove := List.head?_dropWhile_not (width < ·) layout.levels
    rw [remaining] at notAbove
    simpa using notAbove

/-- The level that is on top when all above `width` are closed parts the stack. -/
theorem exists_stack_eq_closed (layout : Layout) (width : Nat) :
    ∃ outer removed, layout.stack = outer ++ (layout.closed width).top :: removed ∧
      (layout.closed width).stack = outer ++ [(layout.closed width).top] ∧
      removed.length = layout.depth - (layout.closed width).depth ∧
      ∀ level ∈ removed, width < level := by
  obtain ⟨outer, closed⟩ := (layout.closed width).exists_stack_eq_append_top
  have whole := layout.stack_closed width
  have lengths := congrArg List.length whole
  rw [List.length_append, length_stack, length_stack] at lengths
  refine ⟨outer, (layout.levels.takeWhile (width < ·)).reverse, ?_, closed, by omega,
    fun level member => ?_⟩
  · rw [whole, closed, List.append_assoc, List.singleton_append]
  · have isAbove := List.mem_takeWhile_imp (List.mem_reverse.mp member)
    exact of_decide_eq_true isAbove

/-- In an increasing stack what stands below one of its levels stands in front of it. -/
theorem filter_lt_of_increasing {outer inner : List Nat} {level : Nat}
    (increasing : (outer ++ level :: inner).Pairwise (· < ·)) :
    (outer ++ level :: inner).filter (· < level) = outer := by
  obtain ⟨-, innerIncreasing, outerBelow⟩ := List.pairwise_append.mp increasing
  have above := (List.pairwise_cons.mp innerIncreasing).1
  rw [List.filter_append, List.filter_eq_self.mpr fun other member =>
      decide_eq_true (outerBelow other member level List.mem_cons_self),
    List.filter_eq_nil_iff.mpr, List.append_nil]
  intro other member
  rw [decide_eq_true_iff, not_lt]
  rcases List.mem_cons.mp member with rfl | isInner
  · exact le_rfl
  · exact (above other isInner).le

theorem le_top_of_mem_stack (increasing : layout.stack.Pairwise (· < ·)) {level : Nat}
    (member : level ∈ layout.stack) : level ≤ layout.top := by
  obtain ⟨outer, stack⟩ := layout.exists_stack_eq_append_top
  rw [stack] at increasing member
  rcases List.mem_append.mp member with isOuter | isTop
  · exact ((List.pairwise_append.mp increasing).2.2 level isOuter _ List.mem_cons_self).le
  · exact (List.mem_singleton.mp isTop).le

/-- A level is left at `width` exactly if one was there. -/
theorem top_closed_eq_iff (increasing : layout.stack.Pairwise (· < ·)) :
    (layout.closed width).top = width ↔ width ∈ layout.stack := by
  obtain ⟨outer, removed, whole, -, -, above⟩ := layout.exists_stack_eq_closed width
  rw [whole] at increasing ⊢
  refine ⟨fun same => by simp [same], fun member => ?_⟩
  rcases List.mem_append.mp member with isOuter | isInner
  · have below := (List.pairwise_append.mp increasing).2.2 width isOuter _ List.mem_cons_self
    exact absurd (layout.top_closed_le width) (not_le.mpr below)
  · rcases List.mem_cons.mp isInner with isTop | isRemoved
    · exact isTop.symm
    · exact absurd (above width isRemoved) (lt_irrefl width)

/-- A line fails exactly if it returns to a width at which no level stands. -/
theorem call_fails_iff (increasing : layout.stack.Pairwise (· < ·)) :
    (layout.call width).Fails ↔ width < layout.top ∧ width ∉ layout.stack := by
  unfold LineCall.Fails call
  rcases lt_trichotomy width layout.top with shallower | same | deeper
  · rw [line_of_lt shallower, ← top_closed_eq_iff increasing]
    by_cases found : (layout.closed width).top = width
    · simp [found]
    · simp [found, shallower]
  · rw [line_of_eq same]
    simp [same]
  · rw [line_of_gt deeper]
    simp [deeper.asymm]

/-- As many levels are removed as dedents are reported, and as many added as indents. -/
theorem exists_stack_line (layout : Layout) (width : Nat) :
    ∃ kept removed, layout.stack = kept ++ removed ∧
      removed.length = (layout.call width).dedents ∧
      (layout.line width).2.stack = kept ++ List.replicate (layout.call width).indents width := by
  unfold call
  rcases lt_trichotomy width layout.top with shallower | same | deeper
  · obtain ⟨outer, removed, whole, closed, lengths, -⟩ := layout.exists_stack_eq_closed width
    rw [line_of_lt shallower]
    refine ⟨outer ++ [(layout.closed width).top], removed, by rw [whole, List.append_cons], ?_⟩
    by_cases found : (layout.closed width).top = width
    · rw [if_pos found]
      exact ⟨lengths, by rw [closed]; exact (List.append_nil _).symm⟩
    · rw [if_neg found]
      exact ⟨lengths, by rw [closed]; exact (List.append_nil _).symm⟩
  · rw [line_of_eq same]
    refine ⟨layout.stack, [], (List.append_nil _).symm, ?_⟩
    cases layout.started with
    | false => exact ⟨rfl, (List.append_nil _).symm⟩
    | true => exact ⟨rfl, (List.append_nil _).symm⟩
  · rw [line_of_gt deeper]
    exact ⟨layout.stack, [], (List.append_nil _).symm, rfl, by simp [stack, LineCall.indents,
      LineLayout.indents]⟩

/-- Of the stack there remains what stands below the width at which the line counts, and a level is
left at that width. -/
theorem stack_line (increasing : layout.stack.Pairwise (· < ·)) (width : Nat) :
    (layout.line width).2.stack =
      layout.stack.filter (· < (layout.call width).effective) ++
        [(layout.call width).effective] := by
  unfold call
  rcases lt_trichotomy width layout.top with shallower | same | deeper
  · obtain ⟨outer, removed, whole, closed, -, -⟩ := layout.exists_stack_eq_closed width
    have effective : (⟨width, (layout.line width).1⟩ : LineCall).effective =
        (layout.closed width).top := by
      rw [line_of_lt shallower]
      by_cases found : (layout.closed width).top = width
      · rw [if_pos found]
        exact found.symm
      · rw [if_neg found]
        rfl
    rw [whole] at increasing
    rw [effective, whole, filter_lt_of_increasing increasing, line_of_lt shallower]
    exact closed
  · obtain ⟨outer, whole⟩ := layout.exists_stack_eq_append_top
    rw [whole] at increasing
    rw [line_of_eq same, same]
    change layout.stack = layout.stack.filter (· < layout.top) ++ [layout.top]
    rw [whole, filter_lt_of_increasing increasing]
  · rw [line_of_gt deeper]
    change 0 :: (width :: layout.levels).reverse = layout.stack.filter (· < width) ++ [width]
    rw [List.reverse_cons, ← List.cons_append, ← stack, List.filter_eq_self.mpr fun level member =>
      decide_eq_true ((le_top_of_mem_stack increasing member).trans_lt deeper)]

/-! ## Whole sequences of lines -/

/-- The widths at which the lines count. -/
def effectiveWidths (layout : Layout) (widths : List Nat) : List Nat :=
  (layout.lines widths).1.map LineCall.effective

theorem stack_increasing {widths : List Nat} (stack : layout.stack = 0 :: strictMinima widths) :
    layout.stack.Pairwise (· < ·) := by
  rw [stack]
  exact List.pairwise_cons.mpr ⟨fun _ => pos_of_mem_strictMinima, strictMinima_increasing widths⟩

theorem stack_lines (tabWidth : Nat) (widths : List Nat) :
    ((ofTabWidth tabWidth).lines widths).2.stack =
      0 :: strictMinima ((ofTabWidth tabWidth).effectiveWidths widths) := by
  induction widths using List.reverseRecOn with
  | nil => rfl
  | append_singleton widths width inductionHypothesis =>
    have increasing := stack_increasing inductionHypothesis
    rw [effectiveWidths] at inductionHypothesis ⊢
    rw [lines_append_singleton, List.map_append, List.map_singleton,
      zero_cons_strictMinima_append_singleton, ← inductionHypothesis]
    exact stack_line increasing width

theorem depth_lines (layout : Layout) (widths : List Nat) :
    layout.depth + ((layout.lines widths).1.map LineCall.indents).sum =
      ((layout.lines widths).1.map LineCall.dedents).sum + (layout.lines widths).2.depth := by
  induction widths generalizing layout with
  | nil => exact Nat.add_comm _ _
  | cons width widths inductionHypothesis =>
    have later := inductionHypothesis (layout.line width).2
    obtain ⟨kept, removed, before, lengths, after⟩ := layout.exists_stack_line width
    have depthBefore := layout.length_stack
    have depthAfter := (layout.line width).2.length_stack
    rw [before, List.length_append] at depthBefore
    rw [after, List.length_append, List.length_replicate] at depthAfter
    simp only [lines, List.map_cons, List.sum_cons]
    omega

end Layout

/-- The indentation stack is the chain of the suffix minima. After any lines the open levels are
those of width zero and of the minima among the widths at which the lines count; the next line fails
exactly if it stands below the top and at no level; whether it fails or not, as many levels are
removed as dedents are reported; and indents and dedents balance once the levels that are left are
closed. -/
theorem levels_suffixMinima (tabWidth : Nat) (widths : List Nat) :
    let (calls, layout) := (Layout.ofTabWidth tabWidth).lines widths
    calls.map LineCall.width = widths ∧
      layout.stack.Pairwise (· < ·) ∧ layout.stack.head? = some 0 ∧
      layout.stack = 0 :: strictMinima (calls.map LineCall.effective) ∧
      (∀ width, ((layout.call width).Fails ↔ width < layout.top ∧ width ∉ layout.stack) ∧
        ∃ kept removed, layout.stack = kept ++ removed ∧
          removed.length = (layout.call width).dedents ∧
          (layout.line width).2.stack =
            kept ++ List.replicate (layout.call width).indents width) ∧
      ((calls.map LineCall.indents).sum : Int) - (calls.map LineCall.dedents).sum -
        layout.finish.1 = 0 ∧ layout.finish.2.stack = [0] := by
  have minima := Layout.stack_lines tabWidth widths
  have increasing := Layout.stack_increasing minima
  have balance := (Layout.ofTabWidth tabWidth).depth_lines widths
  refine ⟨Layout.map_width_lines _ widths, increasing, rfl, minima, fun width => ?_, ?_, rfl⟩
  · exact ⟨Layout.call_fails_iff increasing, Layout.exists_stack_line _ width⟩
  · have closes : ((Layout.ofTabWidth tabWidth).lines widths).2.finish.1 =
        ((Layout.ofTabWidth tabWidth).lines widths).2.depth := rfl
    have empty : (Layout.ofTabWidth tabWidth).depth = 0 := rfl
    omega

end Offside
