import Offside.Proofs.Syntax.Outline

/-!
The lines of an outline have the tokens that the outline says.
-/

namespace Offside

open Lexeme

/-! ## Lines -/

theorem Name.coded (name : Name) : name.lexeme.Coded id :=
  coded_word name.isIdentifier.isName

theorem coded_throw : (word "throw").Coded id :=
  coded_word (by decide +kernel)

namespace Line

variable {width : Nat} {lexemes : List Lexeme}

/-- The line is code. How wide it is hangs on the text as a whole. -/
def Coded (line : Line) : Prop :=
  Code line.lexemes ∧ line.lexemes ≠ []

theorem coded_single {lexeme : Lexeme} (coded : lexeme.Coded id) : Coded ⟨width, [lexeme]⟩ :=
  ⟨.single coded, List.cons_ne_nil _ _⟩

theorem coded_cons {lexeme : Lexeme} (coded : lexeme.Coded id)
    (later : Coded ⟨width, lexemes⟩) : Coded ⟨width, lexeme :: lexemes⟩ :=
  ⟨.plain coded later.1, List.cons_ne_nil _ _⟩

theorem coded_switchHead (subject : Name) (others : List Name) :
    Coded ⟨width, Outline.switchHead subject others⟩ := by
  have colon : Code [symbol .colon] := .single (coded_symbol (by decide))
  have names : Code (others.flatMap (fun other => [symbol .comma, other.lexeme]) ++
      [symbol .colon]) := by
    induction others with
    | nil => exact colon
    | cons other others inductionHypothesis =>
      exact .plain (coded_symbol (by decide)) (.plain other.coded inductionHypothesis)
  exact ⟨.plain (coded_word (by decide +kernel)) (.plain subject.coded names),
    List.cons_ne_nil _ _⟩

end Line

mutual

theorem Outline.coded (outline : Outline) (width : Nat) :
    ∀ line ∈ outline.lines width, line.Coded := by
  match outline with
  | .name name =>
    exact List.forall_mem_singleton.mpr (Line.coded_single name.coded)
  | .throw name =>
    exact List.forall_mem_singleton.mpr
      (Line.coded_cons coded_throw (Line.coded_single name.coded))
  | .empty =>
    exact List.forall_mem_singleton.mpr (Line.coded_single (coded_symbol (by decide)))
  | .block inside inner => exact Outline.codedAll inner inside
  | .switch subject others inside arms =>
    exact List.forall_mem_cons.mpr
      ⟨Line.coded_switchHead subject others, OutlineArm.codedAll arms inside⟩

theorem Outline.codedAll (outlines : List Outline) (width : Nat) :
    ∀ line ∈ Outline.linesAll width outlines, line.Coded := by
  match outlines with
  | [] => exact List.forall_mem_nil _
  | outline :: outlines =>
    exact List.forall_mem_append.mpr
      ⟨outline.coded width, Outline.codedAll outlines width⟩

theorem OutlineArm.coded (arm : OutlineArm) (width : Nat) :
    ∀ line ∈ arm.lines width, line.Coded := by
  have coded_arrow : (symbol .arrow).Coded id := coded_symbol (by decide)
  match arm with
  | .name pattern value =>
    exact List.forall_mem_singleton.mpr (Line.coded_cons pattern.coded
      (Line.coded_cons coded_arrow (Line.coded_single value.coded)))
  | .throw pattern value =>
    exact List.forall_mem_singleton.mpr (Line.coded_cons pattern.coded
      (Line.coded_cons coded_arrow
        (Line.coded_cons coded_throw (Line.coded_single value.coded))))
  | .block pattern inside inner =>
    exact List.forall_mem_cons.mpr
      ⟨Line.coded_cons pattern.coded (Line.coded_single coded_arrow),
        Outline.codedAll inner inside⟩

theorem OutlineArm.codedAll (arms : List OutlineArm) (width : Nat) :
    ∀ line ∈ OutlineArm.linesAll width arms, line.Coded := by
  match arms with
  | [] => exact List.forall_mem_nil _
  | arm :: arms =>
    exact List.forall_mem_append.mpr ⟨arm.coded width, OutlineArm.codedAll arms width⟩

end

/-! ## Layout -/

/-- Lines at a level of their own, before a line that closes it. -/
theorem Lays.level {apart : Bool} {levels : List Nat} {width : Nat} {tokens outer : List Lexeme}
    {inner lines : List Line} (deeper : levels.headD 0 < width)
    (starts : ∃ lexemes more, inner = ⟨width, lexemes⟩ :: more)
    (lower : ∀ line ∈ lines.head?, line.width ≤ levels.headD 0)
    (outside : Lays false levels lines outer)
    (inside : (∀ line ∈ lines.head?, line.width ≤ width) →
      (∀ apart, Lays apart (width :: levels) lines (layout .dedent :: outer)) →
        Lays false (width :: levels) (inner ++ lines) (tokens ++ layout .dedent :: outer)) :
    Lays apart levels (inner ++ lines) (inLevel tokens ++ outer) := by
  have lowerInside : ∀ line ∈ lines.head?, line.width ≤ width := fun line member =>
    Nat.le_trans (lower line member) (Nat.le_of_lt deeper)
  have opened := inside lowerInside fun apart => closing deeper lower outside
  obtain ⟨lexemes, more, rfl⟩ := starts
  rw [inLevel_append]
  exact opening deeper opened

namespace Outline

/-- A statement that is no block starts with a line of its own. -/
theorem lines_of_notBlock {outline : Outline} (notBlock : outline.isBlock = false) (width : Nat) :
    ∃ lexemes more, outline.lines width = ⟨width, lexemes⟩ :: more := by
  cases outline with
  | block inside inner => exact absurd notBlock Bool.noConfusion
  | name name => exact ⟨_, _, rfl⟩
  | throw name => exact ⟨_, _, rfl⟩
  | empty => exact ⟨_, _, rfl⟩
  | switch subject others inside arms => exact ⟨_, _, rfl⟩

theorem head_linesAll {outlines : List Outline} {width : Nat} {lines : List Line}
    (noBlock : ∀ first ∈ outlines.head?, first.isBlock = false)
    (lower : ∀ line ∈ lines.head?, line.width ≤ width) :
    ∀ line ∈ (linesAll width outlines ++ lines).head?, line.width ≤ width := by
  cases outlines with
  | nil => exact lower
  | cons outline outlines =>
    obtain ⟨lexemes, more, split⟩ := lines_of_notBlock (noBlock outline rfl) width
    rw [linesAll, split]
    intro line member
    obtain rfl := Option.mem_some_iff.mp member
    exact Nat.le_refl width

theorem linesAll_of_startsBlock {outlines : List Outline} (starts : startsBlock outlines = true)
    (width : Nat) : ∃ lexemes more, linesAll width outlines = ⟨width, lexemes⟩ :: more := by
  cases outlines with
  | nil => exact absurd starts Bool.noConfusion
  | cons outline outlines =>
    have notBlock : outline.isBlock = false := by simpa [startsBlock] using starts
    obtain ⟨lexemes, more, split⟩ := lines_of_notBlock notBlock width
    rw [linesAll, split]
    exact ⟨lexemes, _, rfl⟩

/-- No block comes after what ends with the end of a level. -/
theorem notBlock_of_allows {outline next : Outline} (allows : outline.allows next = true)
    (ends : outline.endsInLine = false) : next.isBlock = false := by
  cases next with
  | block width inner =>
    cases outline with
    | block => exact nomatch allows
    | switch => exact nomatch allows
    | name => exact nomatch ends
    | throw => exact nomatch ends
    | empty => exact nomatch ends
  | name => rfl
  | throw => rfl
  | empty => rfl
  | switch => rfl

end Outline

theorem OutlineArm.linesAll_of_nonempty {arms : List OutlineArm} (nonempty : arms ≠ [])
    (width : Nat) : ∃ lexemes more, linesAll width arms = ⟨width, lexemes⟩ :: more := by
  obtain ⟨arm, arms, rfl⟩ := List.exists_cons_of_ne_nil nonempty
  cases arm with
  | name pattern value => exact ⟨_, _, rfl⟩
  | throw pattern value => exact ⟨_, _, rfl⟩
  | block pattern inside inner => exact ⟨_, _, rfl⟩

theorem OutlineArm.head_linesAll (arms : List OutlineArm) {width : Nat} {lines : List Line}
    (lower : ∀ line ∈ lines.head?, line.width ≤ width) :
    ∀ line ∈ (linesAll width arms ++ lines).head?, line.width ≤ width := by
  cases arms with
  | nil => exact lower
  | cons arm arms =>
    obtain ⟨lexemes, more, split⟩ := linesAll_of_nonempty (List.cons_ne_nil arm arms) width
    rw [split]
    intro line member
    obtain rfl := Option.mem_some_iff.mp member
    exact Nat.le_refl width

theorem Outline.lineBreak_of_notBlock {outline : Outline} (notBlock : outline.isBlock = false)
    (apart : Bool) : lineBreak (apart && !outline.isBlock) = lineBreak apart := by
  rw [notBlock, Bool.not_false, Bool.and_true]

mutual

theorem Outline.lays (outline : Outline) {levels : List Nat}
    (fits : outline.Fits (levels.headD 0)) {lines : List Line} {outer : List Lexeme}
    (lower : outline.endsInLine = false → ∀ line ∈ lines.head?, line.width ≤ levels.headD 0)
    (later : Lays outline.endsInLine levels lines outer) (apart : Bool) :
    Lays apart levels (outline.lines (levels.headD 0) ++ lines)
      (lineBreak (apart && !outline.isBlock) ++ (outline.tokens ++ outer)) := by
  match outline with
  | .name name =>
    rw [Outline.lineBreak_of_notBlock rfl]
    exact .stays later
  | .throw name =>
    rw [Outline.lineBreak_of_notBlock rfl]
    exact .stays later
  | .empty =>
    rw [Outline.lineBreak_of_notBlock rfl]
    exact .stays later
  | .block inside inner =>
    obtain ⟨deeper, starts, fitsInner⟩ := fits
    rw [Outline.isBlock, Bool.not_true, Bool.and_false]
    exact Lays.level deeper (Outline.linesAll_of_startsBlock starts inside) (lower rfl) later
      fun lower closed => Outline.laysAll inner (inside :: levels) fitsInner lower closed false
  | .switch subject others inside [] =>
    rw [Outline.lineBreak_of_notBlock rfl, Outline.tokens, List.append_assoc]
    exact .stays later
  | .switch subject others inside (arm :: arms) =>
    obtain ⟨deeper, fitsArms⟩ := fits
    rw [Outline.lineBreak_of_notBlock rfl, Outline.tokens, List.append_assoc]
    have starts := OutlineArm.linesAll_of_nonempty (List.cons_ne_nil arm arms) inside
    refine .stays (Lays.level deeper starts (lower rfl) later fun lower closed => ?_)
    exact OutlineArm.laysAll (arm :: arms) (inside :: levels) fitsArms lower closed false

theorem Outline.laysAll (outlines : List Outline) (levels : List Nat)
    (fits : Outline.FitAll (levels.headD 0) outlines) {lines : List Line} {outer : List Lexeme}
    (lower : ∀ line ∈ lines.head?, line.width ≤ levels.headD 0)
    (later : ∀ apart, Lays apart levels lines outer) (apart : Bool) :
    Lays apart levels (Outline.linesAll (levels.headD 0) outlines ++ lines)
      (Outline.tokensAll apart outlines ++ outer) := by
  match outlines with
  | [] => exact later apart
  | outline :: outlines =>
    obtain ⟨fitsFirst, allows, fitsOthers⟩ := fits
    have others := Outline.laysAll outlines levels fitsOthers lower later outline.endsInLine
    rw [Outline.linesAll, Outline.tokensAll, List.append_assoc, List.append_assoc,
      List.append_assoc]
    refine outline.lays fitsFirst (fun ends => ?_) others apart
    exact Outline.head_linesAll
      (fun next member => Outline.notBlock_of_allows (allows next member) ends) lower

theorem OutlineArm.lays (arm : OutlineArm) {levels : List Nat}
    (fits : arm.Fits (levels.headD 0)) {lines : List Line} {outer : List Lexeme}
    (lower : ∀ line ∈ lines.head?, line.width ≤ levels.headD 0)
    (later : Lays arm.endsInLine levels lines outer) (apart : Bool) :
    Lays apart levels (arm.lines (levels.headD 0) ++ lines)
      (lineBreak apart ++ (arm.tokens ++ outer)) := by
  match arm with
  | .name pattern value => exact .stays later
  | .throw pattern value => exact .stays later
  | .block pattern inside inner =>
    obtain ⟨deeper, starts, fitsInner⟩ := fits
    exact .stays (Lays.level deeper (Outline.linesAll_of_startsBlock starts inside) lower later
      fun lower closed => Outline.laysAll inner (inside :: levels) fitsInner lower closed false)

theorem OutlineArm.laysAll (arms : List OutlineArm) (levels : List Nat)
    (fits : OutlineArm.FitAll (levels.headD 0) arms) {lines : List Line} {outer : List Lexeme}
    (lower : ∀ line ∈ lines.head?, line.width ≤ levels.headD 0)
    (later : ∀ apart, Lays apart levels lines outer) (apart : Bool) :
    Lays apart levels (OutlineArm.linesAll (levels.headD 0) arms ++ lines)
      (OutlineArm.tokensAll apart arms ++ outer) := by
  match arms with
  | [] => exact later apart
  | arm :: arms =>
    obtain ⟨fitsFirst, fitsOthers⟩ := fits
    have others := OutlineArm.laysAll arms levels fitsOthers lower later arm.endsInLine
    rw [OutlineArm.linesAll, OutlineArm.tokensAll, List.append_assoc, List.append_assoc,
      List.append_assoc]
    exact arm.lays fitsFirst (OutlineArm.head_linesAll arms lower) others apart

end

/-- The items of the text of an outline. -/
theorem Outline.items_text {outlines : List Outline} (fits : Outline.FitAll 0 outlines)
    (short : (Outline.text outlines).length < Layout.widthCount) (tabWidth : Nat) :
    ∃ tokens : List Token,
      tokens.map Token.lexeme = Outline.tokensAll false outlines ++ [layout .endOfInput] ∧
        (Lexer.ofSource tabWidth (Outline.text outlines)).items false = tokens.map .token := by
  have lower : ∀ line ∈ ([] : List Line).head?, line.width ≤ 0 := by
    intro line member
    exact absurd member (Option.not_mem_none line)
  have lays : Lays false [] (Outline.linesAll 0 outlines ++ [])
      (Outline.tokensAll false outlines ++ [layout .endOfInput]) :=
    Outline.laysAll outlines [] fits lower (fun apart => .done) false
  rw [List.append_nil] at lays
  have sound : ∀ line ∈ Outline.linesAll 0 outlines, line.Sound := by
    intro line member
    obtain ⟨code, nonempty⟩ := Outline.codedAll outlines 0 line member
    exact ⟨code, nonempty, Nat.lt_of_le_of_lt (Line.width_le member) short⟩
  exact items_of_lays lays sound tabWidth

end Offside
