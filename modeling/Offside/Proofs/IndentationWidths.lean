import Mathlib.Data.List.DropRight
import Offside.Layout
import Offside.Settings

/-!
How wide indentation is measured to be. The width of a line is the number of columns that its blanks
take behind the last one that starts over, cut to a word of 64 bits. A sum on the way is too large
for a word exactly if some beginning of the blanks takes too many columns.
-/

namespace Offside

namespace Layout

/-- A blank behind which columns are counted anew. -/
def startsOver (c : Char) : Bool :=
  c = '\x0c' || c = '\r'

/-- The columns that blanks take: one for a space and the tab width for a tab, behind the last blank
that starts over. -/
def columns (tabWidth : Nat) (blanks : List Char) : Nat :=
  let counted := blanks.rtakeWhile fun c => !startsOver c
  counted.count ' ' + tabWidth * counted.count '\t'

/-- The sum that is formed for one more blank, before it is cut to a word. -/
def sum? (tabWidth width : Nat) (c : Char) : Option Nat :=
  if c = ' ' then some (width + 1)
  else if c = '\t' then some (width + tabWidth)
  else none

/-- The sums that are formed while blanks are measured. -/
def sums (tabWidth width : Nat) : List Char → List Nat
  | [] => []
  | c :: blanks => (sum? tabWidth width c).toList ++ sums tabWidth (widen tabWidth width c) blanks

/-- Every sum fits in a word, so that nothing is cut off. -/
def Fits (tabWidth : Nat) (blanks : List Char) : Prop :=
  ∀ sum ∈ sums tabWidth 0 blanks, sum < widthCount

instance (tabWidth : Nat) (blanks : List Char) : Decidable (Fits tabWidth blanks) :=
  inferInstanceAs (Decidable (∀ sum ∈ sums tabWidth 0 blanks, sum < widthCount))

variable {tabWidth width : Nat} {blanks : List Char} {c : Char}

theorem blank_cases (blank : Text.isBlank c = true) :
    c = ' ' ∨ c = '\t' ∨ startsOver c = true := by
  simpa [Text.isBlank, Text.isInlineBlank, startsOver, or_assoc] using blank

theorem widthCount_pos : 0 < widthCount :=
  Nat.pow_pos Nat.two_pos

/-! ## Columns -/

theorem columns_nil (tabWidth : Nat) : columns tabWidth [] = 0 :=
  rfl

theorem columns_space (tabWidth : Nat) (blanks : List Char) :
    columns tabWidth (blanks ++ [' ']) = columns tabWidth blanks + 1 := by
  unfold columns
  rw [List.rtakeWhile_concat_pos _ _ _ rfl]
  simp only [List.count_append, List.count_singleton]
  exact Nat.add_right_comm _ 1 _

theorem columns_tab (tabWidth : Nat) (blanks : List Char) :
    columns tabWidth (blanks ++ ['\t']) = columns tabWidth blanks + tabWidth := by
  unfold columns
  rw [List.rtakeWhile_concat_pos _ _ _ rfl]
  simp only [List.count_append, List.count_singleton]
  exact (congrArg _ (Nat.mul_succ _ _)).trans (Nat.add_assoc _ _ _).symm

theorem columns_startsOver (tabWidth : Nat) (blanks : List Char) (resets : startsOver c = true) :
    columns tabWidth (blanks ++ [c]) = 0 := by
  unfold columns
  rw [List.rtakeWhile_concat_neg _ _ _ (by simp [resets])]
  rfl

theorem columns_spaces (tabWidth count : Nat) :
    columns tabWidth (List.replicate count ' ') = count := by
  induction count with
  | zero => rfl
  | succ count inductionHypothesis =>
    rw [List.replicate_succ', columns_space, inductionHypothesis]

/-- No blank takes more columns than a tab. -/
theorem columns_le (positive : 0 < tabWidth) (blank : ∀ c ∈ blanks, Text.isBlank c = true) :
    columns tabWidth blanks ≤ tabWidth * blanks.length := by
  induction blanks using List.reverseRecOn with
  | nil => exact Nat.zero_le _
  | append_singleton blanks c inductionHypothesis =>
    obtain ⟨earlier, last⟩ := List.forall_mem_append.mp blank
    have shorter := inductionHypothesis earlier
    rw [List.length_append, List.length_singleton, Nat.mul_succ]
    rcases blank_cases (last c List.mem_cons_self) with rfl | rfl | resets
    · rw [columns_space]
      exact Nat.add_le_add shorter positive
    · rw [columns_tab]
      exact Nat.add_le_add_right shorter tabWidth
    · rw [columns_startsOver tabWidth blanks resets]
      exact Nat.zero_le _

/-! ## Sums -/

theorem sum?_startsOver (resets : startsOver c = true) : sum? tabWidth width c = none := by
  simp only [startsOver, Bool.or_eq_true, decide_eq_true_eq] at resets
  rcases resets with rfl | rfl
  · rfl
  · rfl

/-- One more blank makes the width the sum that is formed for it, cut to a word. -/
theorem widen_eq (tabWidth width : Nat) (c : Char) :
    widen tabWidth width c = (sum? tabWidth width c).getD 0 % widthCount := by
  unfold widen sum?
  split
  · rfl
  · split
    · rfl
    · rfl

theorem sum?_mod (tabWidth width : Nat) (c : Char) :
    (sum? tabWidth (width % widthCount) c).getD 0 % widthCount =
      (sum? tabWidth width c).getD 0 % widthCount := by
  unfold sum?
  split
  · exact Nat.mod_add_mod width widthCount 1
  · split
    · exact Nat.mod_add_mod width widthCount tabWidth
    · rfl

/-- As long as the width is the columns so far, so is the sum. -/
theorem sum?_columns (tabWidth : Nat) (blanks : List Char) (blank : Text.isBlank c = true) :
    (sum? tabWidth (columns tabWidth blanks) c).getD 0 = columns tabWidth (blanks ++ [c]) := by
  rcases blank_cases blank with rfl | rfl | resets
  · exact (columns_space tabWidth blanks).symm
  · exact (columns_tab tabWidth blanks).symm
  · rw [sum?_startsOver resets, columns_startsOver tabWidth blanks resets]
    rfl

/-- It makes no difference whether sums are cut to words on the way or once at the end. -/
theorem foldl_widen (tabWidth : Nat) (blank : ∀ c ∈ blanks, Text.isBlank c = true) :
    blanks.foldl (widen tabWidth) 0 = columns tabWidth blanks % widthCount := by
  induction blanks using List.reverseRecOn with
  | nil => exact (Nat.zero_mod widthCount).symm
  | append_singleton blanks c inductionHypothesis =>
    obtain ⟨earlier, last⟩ := List.forall_mem_append.mp blank
    rw [List.foldl_append, inductionHypothesis earlier, List.foldl_cons, List.foldl_nil, widen_eq,
      sum?_mod, sum?_columns tabWidth blanks (last c List.mem_cons_self)]

theorem sums_append_singleton (tabWidth width : Nat) (blanks : List Char) (c : Char) :
    sums tabWidth width (blanks ++ [c]) =
      sums tabWidth width blanks ++
        (sum? tabWidth (blanks.foldl (widen tabWidth) width) c).toList := by
  induction blanks generalizing width with
  | nil => exact List.append_nil _
  | cons first blanks inductionHypothesis =>
    rw [List.cons_append, sums, sums, inductionHypothesis, List.append_assoc]
    rfl

theorem forall_sum?_lt_iff :
    (∀ sum ∈ (sum? tabWidth width c).toList, sum < widthCount) ↔
      (sum? tabWidth width c).getD 0 < widthCount := by
  cases sum? tabWidth width c with
  | none => simp [widthCount_pos]
  | some sum => simp

/-- The first sum that does not fit is formed where the columns do not fit for the first time. Up to
there the width is the columns. -/
theorem fits_iff (tabWidth : Nat) (blank : ∀ c ∈ blanks, Text.isBlank c = true) :
    Fits tabWidth blanks ↔
      ∀ beginning, beginning <+: blanks → columns tabWidth beginning < widthCount := by
  induction blanks using List.reverseRecOn with
  | nil => simp [Fits, sums, columns_nil, widthCount_pos]
  | append_singleton blanks c inductionHypothesis =>
    obtain ⟨earlier, last⟩ := List.forall_mem_append.mp blank
    have isBlank := last c List.mem_cons_self
    have split : Fits tabWidth (blanks ++ [c]) ↔ Fits tabWidth blanks ∧
        (sum? tabWidth (blanks.foldl (widen tabWidth) 0) c).getD 0 < widthCount := by
      rw [Fits, sums_append_singleton, List.forall_mem_append, forall_sum?_lt_iff, Fits]
    have beginnings : (∀ beginning, beginning <+: blanks ++ [c] →
          columns tabWidth beginning < widthCount) ↔
        (∀ beginning, beginning <+: blanks → columns tabWidth beginning < widthCount) ∧
          columns tabWidth (blanks ++ [c]) < widthCount := by
      simp only [List.prefix_concat_iff, or_imp, forall_and, forall_eq, and_comm]
    rw [split, beginnings, inductionHypothesis earlier]
    refine and_congr_right fun fit => ?_
    have whole := Nat.mod_eq_of_lt (fit blanks (List.prefix_refl blanks))
    rw [foldl_widen tabWidth earlier, whole, sum?_columns tabWidth blanks isBlank]

-- A sum that does not fit leaves no trace where the width starts over behind it.
example : ¬ Fits (Nat.pow 2 63) ['\t', '\t', '\r'] := by decide

theorem Fits.columns_lt (fits : Fits tabWidth blanks)
    (blank : ∀ c ∈ blanks, Text.isBlank c = true) : columns tabWidth blanks < widthCount :=
  (fits_iff tabWidth blank).mp fits blanks (List.prefix_refl blanks)

/-- Blanks that are few enough for the tab width fit. -/
theorem fits_of_length (positive : 0 < tabWidth) (blank : ∀ c ∈ blanks, Text.isBlank c = true)
    (few : tabWidth * blanks.length < widthCount) : Fits tabWidth blanks := by
  refine (fits_iff tabWidth blank).mpr fun beginning isPrefix => ?_
  calc columns tabWidth beginning
      ≤ tabWidth * beginning.length :=
        columns_le positive fun c member => blank c (isPrefix.subset member)
    _ ≤ tabWidth * blanks.length := Nat.mul_le_mul_left tabWidth isPrefix.length_le
    _ < widthCount := few

theorem width_measure (layout : Layout) (line : List Char) :
    (layout.measure line).width =
      columns layout.tabWidth (line.takeWhile Text.isBlank) % widthCount :=
  foldl_widen layout.tabWidth fun _ => List.mem_takeWhile_imp

end Layout

theorem Settings.tabWidth_of_make {tabWidth : Nat} {typeNames : List String} {settings : Settings}
    (accepted : make tabWidth typeNames = .ok settings) : settings.tabWidth = tabWidth := by
  unfold make at accepted
  split at accepted
  next => exact Except.ok.inj accepted ▸ rfl
  next => exact nomatch accepted

/-- With any tab width that settings accept, at any place in a text, the width of a line is the
number of columns that its blanks take, cut to a word. No sum on the way is too large for a word
exactly if no beginning of the blanks takes too many columns, and then the width is the number of
columns. That is so whenever the tab width times the number of blanks fits in a word. -/
theorem measure_columns {tabWidth : Nat} {typeNames : List String} {settings : Settings}
    (accepted : Settings.make tabWidth typeNames = .ok settings) (layout : Layout)
    (line : List Char) :
    let measured := { layout with tabWidth := settings.tabWidth }.measure line
    let blanks := line.takeWhile Text.isBlank
    measured.width = Layout.columns tabWidth blanks % Layout.widthCount ∧
      (Layout.Fits tabWidth blanks ↔ ∀ beginning, beginning <+: blanks →
        Layout.columns tabWidth beginning < Layout.widthCount) ∧
      (Layout.Fits tabWidth blanks → measured.width = Layout.columns tabWidth blanks) ∧
      (tabWidth * blanks.length < Layout.widthCount → Layout.Fits tabWidth blanks) := by
  intro measured blanks
  obtain rfl := Settings.tabWidth_of_make accepted
  have blank : ∀ c ∈ blanks, Text.isBlank c = true := fun _ => List.mem_takeWhile_imp
  have width : measured.width = Layout.columns settings.tabWidth blanks % Layout.widthCount :=
    Layout.width_measure _ line
  refine ⟨width, Layout.fits_iff settings.tabWidth blank, fun fits => ?_,
    Layout.fits_of_length settings.tabWidth_pos blank⟩
  rw [width, Nat.mod_eq_of_lt (fits.columns_lt blank)]

/-- Of blanks before and behind a form feed the latter count, and all sums fit even though tabs are
a quarter of a word wide. -/
theorem measure_columns_formFeed :
    ∃ settings, Settings.make (Nat.pow 2 62) [] = .ok settings ∧
      ((Layout.ofTabWidth settings.tabWidth).measure
        ['\t', '\t', '\t', ' ', '\x0c', '\t', ' ', 'x']).width = Nat.pow 2 62 + 1 := by
  have accepted : Settings.make (Nat.pow 2 62) [] = .ok ⟨Nat.pow 2 62, [], by decide⟩ := rfl
  obtain ⟨-, -, exactly, -⟩ := measure_columns accepted (.ofTabWidth (Nat.pow 2 62))
    ['\t', '\t', '\t', ' ', '\x0c', '\t', ' ', 'x']
  exact ⟨_, accepted, (exactly (by decide)).trans (by decide)⟩

/-- Two tabs of half a word each are measured to be no indentation at all. -/
theorem two_tabs_overflow :
    ∃ settings, Settings.make (Nat.pow 2 63) [] = .ok settings ∧
      ((Layout.ofTabWidth settings.tabWidth).measure ['\t', '\t']).width = 0 ∧
      Layout.columns settings.tabWidth ['\t', '\t'] = Nat.pow 2 64 ∧
      ¬ Layout.Fits settings.tabWidth ['\t', '\t'] :=
  ⟨⟨Nat.pow 2 63, [], by decide⟩, rfl, by decide, by decide, by decide⟩

end Offside
