import Offside.Proofs.Lexer.Interpolations

/-!
Layout in normal form. The tokens of layout stand where no bracket is open, but for the dedents that
end a text. If no character was passed over, then between two other tokens there is the layout of
one line at most: a newline, an indent, or some dedents.
-/

namespace Offside

open LexStream

/-- The error of a character that starts no token. -/
def LexItem.isUnexpected : LexItem → Bool
  | .error ⟨.unexpectedCharacter _, _⟩ => true
  | _ => false

namespace Kind

def isLayout : Kind → Bool
  | newline | indent | dedent => true
  | _ => false

/-- What one line starts with, if anything. -/
inductive OfLine : List Kind → Prop
  | nothing : OfLine []
  | newline : OfLine [.newline]
  | indent : OfLine [.indent]
  | dedents (levels : Nat) : OfLine (List.replicate (levels + 1) .dedent)

/-- Tokens other than layout, each behind what one line starts with. Neither the first of all, unless
some came before, nor the end is behind a newline. -/
inductive InLines : Bool → List Kind → Prop
  | nil {begun : Bool} : InLines begun []
  | cons {begun : Bool} {layout rest : List Kind} {kind : Kind} (ofLine : OfLine layout)
    (newline : .newline ∈ layout → begun = true ∧ kind ≠ .endOfInput)
    (text : kind.isLayout = false) (more : InLines true rest) : InLines begun (layout ++ kind :: rest)

variable {begun : Bool} {kind first last : Kind}
  {layout kinds tail rest others before run after : List Kind}

theorem isStructural_of_isLayout (isLayout : kind.isLayout = true) : kind.isStructural = true := by
  cases kind <;> first | rfl | contradiction

theorem isLayout_eq_false_of_text (text : kind.isStructural = false) : kind.isLayout = false :=
  eq_false_of_ne_true fun isLayout =>
    absurd (text.symm.trans (isStructural_of_isLayout isLayout)) Bool.false_ne_true

theorem OfLine.isLayout (ofLine : OfLine layout) : ∀ kind ∈ layout, kind.isLayout = true := by
  intro kind member
  cases ofLine with
  | nothing => exact absurd member List.not_mem_nil
  | newline => exact List.mem_singleton.mp member ▸ rfl
  | indent => exact List.mem_singleton.mp member ▸ rfl
  | dedents levels => exact List.eq_of_mem_replicate member ▸ rfl

theorem OfLine.cases (ofLine : OfLine layout) :
    layout = [] ∨ layout = [.newline] ∨ layout = [.indent] ∨
      ∃ levels, layout = List.replicate (levels + 1) .dedent := by
  cases ofLine with
  | nothing => exact Or.inl rfl
  | newline => exact Or.inr (Or.inl rfl)
  | indent => exact Or.inr (Or.inr (Or.inl rfl))
  | dedents levels => exact Or.inr (Or.inr (Or.inr ⟨levels, rfl⟩))

theorem ofLine_replicate_dedent (levels : Nat) : OfLine (List.replicate levels .dedent) := by
  cases levels with
  | zero => exact .nothing
  | succ levels => exact .dedents levels

/-- Layout and one more token behind tokens in lines. -/
theorem InLines.append (lines : InLines begun kinds) (ofLine : OfLine layout)
    (newline : .newline ∈ layout → (kinds = [] → begun = true) ∧ kind ≠ .endOfInput)
    (text : kind.isLayout = false) : InLines begun (kinds ++ (layout ++ [kind])) := by
  induction lines with
  | nil => exact .cons ofLine (fun member => ⟨(newline member).1 rfl, (newline member).2⟩) text .nil
  | @cons begun earlier rest other isLine first isText _ inductionHypothesis =>
    rw [List.append_assoc, List.cons_append]
    exact .cons isLine first isText
      (inductionHypothesis fun member => ⟨fun _ => rfl, (newline member).2⟩)

/-- Behind layout the first token that is none is found in one way. -/
theorem append_cons_cases (inLayout : ∀ kind ∈ layout, kind.isLayout = true)
    (text : first.isLayout = false) (split : layout ++ kind :: rest = before ++ first :: after) :
    (before = layout ∧ first = kind ∧ after = rest) ∨
      ∃ inner, before = layout ++ kind :: inner ∧ rest = inner ++ first :: after := by
  rcases List.append_eq_append_iff.mp split with ⟨inner, rfl, found⟩ | ⟨inner, rfl, found⟩
  · cases inner with
    | nil =>
      obtain ⟨rfl, rfl⟩ := List.cons.inj found
      exact Or.inl ⟨List.append_nil _, rfl, rfl⟩
    | cons other inner =>
      obtain ⟨rfl, rfl⟩ := List.cons.inj found
      exact Or.inr ⟨inner, rfl, rfl⟩
  · cases inner with
    | nil =>
      obtain ⟨rfl, rfl⟩ := List.cons.inj found
      exact Or.inl ⟨(List.append_nil _).symm, rfl, rfl⟩
    | cons other inner =>
      obtain ⟨rfl, _⟩ := List.cons.inj found
      have isLayout := inLayout first (List.mem_append_right _ List.mem_cons_self)
      exact absurd (text.symm.trans isLayout) Bool.false_ne_true

theorem not_mem_of_text (inLayout : ∀ kind ∈ layout, kind.isLayout = true)
    (text : kind.isLayout = false) : kind ∉ layout :=
  fun member => absurd (text.symm.trans (inLayout kind member)) Bool.false_ne_true

/-- Layout at the start is that of one line. -/
theorem InLines.opening (lines : InLines begun kinds) (inTail : ∀ kind ∈ tail, kind.isLayout = true)
    (inRun : ∀ kind ∈ run, kind.isLayout = true) (text : last.isLayout = false)
    (split : kinds ++ tail = run ++ last :: after) :
    OfLine run ∧ (.newline ∈ run → begun = true ∧ last ≠ .endOfInput) := by
  cases lines with
  | nil =>
    refine absurd ?_ (not_mem_of_text inTail text)
    rw [← List.nil_append tail, split]
    simp
  | @cons _ layout rest kind ofLine newline isText more =>
    rw [List.append_assoc, List.cons_append] at split
    rcases append_cons_cases ofLine.isLayout text split with ⟨rfl, rfl, _⟩ | ⟨inner, rfl, _⟩
    · exact ⟨ofLine, newline⟩
    · exact absurd (by simp) (not_mem_of_text inRun isText)

/-- Layout between two other tokens is that of one line. -/
theorem InLines.between (lines : InLines begun kinds) (inTail : ∀ kind ∈ tail, kind.isLayout = true)
    (inRun : ∀ kind ∈ run, kind.isLayout = true) (isFirst : first.isLayout = false)
    (text : last.isLayout = false) (split : kinds ++ tail = before ++ first :: (run ++ last :: after)) :
    OfLine run ∧ (.newline ∈ run → last ≠ .endOfInput) := by
  induction lines generalizing before with
  | nil =>
    refine absurd ?_ (not_mem_of_text inTail text)
    rw [← List.nil_append tail, split]
    simp
  | cons ofLine _ _ more inductionHypothesis =>
    rw [List.append_assoc, List.cons_append] at split
    rcases append_cons_cases ofLine.isLayout isFirst split with ⟨_, _, found⟩ | ⟨inner, _, found⟩
    · obtain ⟨isLine, newline⟩ := more.opening inTail inRun text found.symm
      exact ⟨isLine, fun member => (newline member).2⟩
    · exact inductionHypothesis found

/-- Layout outside of brackets is behind tokens that leave no bracket open. -/
theorem LayoutOutside.bracketsOf_eq_zero {brackets : Nat}
    (outside : LayoutOutside brackets (before ++ kind :: after))
    (structural : kind.isStructural = true) : bracketsOf brackets before = 0 :=
  (layoutOutside_append.mp outside).2.1 structural

/-- What is at the end of a text is its end or a dedent with only dedents up to the end. -/
theorem replicate_dedent_cases {levels : Nat} (isLayout : kind.isLayout = true)
    (split : List.replicate levels .dedent ++ [.endOfInput] = before ++ kind :: after) :
    kind = .dedent ∧ ∃ more, after = List.replicate more .dedent ++ [.endOfInput] := by
  induction levels generalizing before with
  | zero =>
    have isEnd : kind ∈ [Kind.endOfInput] := by
      rw [← List.nil_append [Kind.endOfInput]]
      exact split ▸ List.mem_append_right _ List.mem_cons_self
    rw [List.mem_singleton.mp isEnd] at isLayout
    contradiction
  | succ levels inductionHypothesis =>
    cases before with
    | nil =>
      obtain ⟨rfl, rfl⟩ := List.cons.inj split
      exact ⟨rfl, levels, rfl⟩
    | cons other before => exact inductionHypothesis (List.cons.inj split).2

end Kind

/-! ## Steps -/

namespace LexState

variable {state line : LexState} {step : LexStep} {layout : List Kind}

/-- Layout that stands in front of what a step reads: none, or where no bracket is open that of a
line. -/
def StartsLine (state : LexState) (layout : List Kind) : Prop :=
  layout = [] ∨ state.layout.brackets = 0 ∧ ∃ width, layout = lineKinds (state.layout.line width).1

theorem ofLine_lineKinds (layout : Layout) (width : Nat) :
    Kind.OfLine (lineKinds (layout.line width).1) := by
  rcases Nat.lt_trichotomy width layout.top with shallower | same | deeper
  · rw [Layout.line_of_lt shallower]
    split
    · exact Kind.ofLine_replicate_dedent _
    · exact Kind.ofLine_replicate_dedent _
  · rw [Layout.line_of_eq same]
    cases layout.started with
    | false => exact .nothing
    | true => exact .newline
  · rw [Layout.line_of_gt deeper]
    exact .indent

/-- Only behind a line of code there is a newline. -/
theorem started_of_newline {layout : Layout} {width : Nat}
    (member : .newline ∈ lineKinds (layout.line width).1) : layout.started = true := by
  rcases Nat.lt_trichotomy width layout.top with shallower | same | deeper
  · rw [Layout.line_of_lt shallower] at member
    split at member
    · exact absurd (List.eq_of_mem_replicate member) Kind.noConfusion
    · exact absurd (List.eq_of_mem_replicate member) Kind.noConfusion
  · rw [Layout.line_of_eq same] at member
    cases started : layout.started with
    | false =>
      rw [started] at member
      exact absurd member List.not_mem_nil
    | true => rfl
  · rw [Layout.line_of_gt deeper] at member
    exact absurd (List.mem_singleton.mp member) Kind.noConfusion

theorem StartsLine.ofLine (starts : StartsLine state layout) : Kind.OfLine layout := by
  rcases starts with rfl | ⟨_, width, rfl⟩
  · exact .nothing
  · exact ofLine_lineKinds _ _

theorem StartsLine.started (starts : StartsLine state layout) (member : .newline ∈ layout) :
    state.layout.started = true := by
  rcases starts with rfl | ⟨_, width, rfl⟩
  · exact absurd member List.not_mem_nil
  · exact started_of_newline member

theorem StartsLine.layoutOutside (starts : StartsLine state layout) :
    Kind.LayoutOutside state.layout.brackets layout := by
  rcases starts with rfl | ⟨noneOpen, width, rfl⟩
  · trivial
  · rw [noneOpen]
    exact Kind.layoutOutside_of_structural fun kind member =>
      Kind.isStructural_of_isLayout ((ofLine_lineKinds _ _).isLayout kind member)

/-- All that the tokens of a step can be, by the layout they start with. -/
inductive StepKinds (layout : List Kind) (step : LexStep) : Prop
  | text {kind : Kind} (isText : kind.isStructural = false) (found : kinds step.1 = layout ++ [kind])
  | nothing (found : kinds step.1 = layout)
    (stopped : step.2.finished = true ∨ ∃ item ∈ step.1, item.isUnexpected = true)
  | ends (levels : Nat) (noLayout : layout = []) (ended : step.2.finished = true)
    (found : kinds step.1 = List.replicate levels .dedent ++ [.endOfInput])

theorem kinds_indentation_eq (state : LexState) :
    kinds state.indentation.1 = lineKinds
      (state.layout.line (state.layout.measure (Scan.leading state.rest).text).width).1 := by
  rw [kinds, tokens_indentation, List.map_map]
  exact List.map_id _

/-- A piece that is read behind some layout. At the end of a text there is none. -/
theorem stepKinds_reads (items : List LexItem) (reads : Reads state step)
    (noLayout : state.rest = [] → kinds items = []) :
    StepKinds (kinds items) (items ++ step.1, step.2) := by
  have yields {kind : Kind} {split : Scan.Split} {after : LexState} (errors : List LexError)
      (piece : IsPiece state kind split after) :
      StepKinds (kinds items) (items ++ (after.yield kind split errors).1,
        (after.yield kind split errors).2) :=
    .text piece.structural (by rw [kinds_append, kinds_yield])
  have nothing (errors : List LexError) : kinds (items ++ errors.map .error) = kinds items := by
    rw [kinds_append, kinds_map_error, List.append_nil]
  cases reads with
  | code _ takes => exact yields _ takes.isPiece
  | part _ takes => exact yields _ takes.isPiece
  | unexpected _ _ =>
    exact .nothing (nothing [_]) (Or.inr ⟨_, List.mem_append_right _ List.mem_cons_self, rfl⟩)
  | ends atEnd closed =>
    refine .ends state.layout.depth (noLayout atEnd) (finished_finish state) ?_
    rw [kinds_append, noLayout atEnd, List.nil_append, kinds_finish_of_closed closed]
  | fails fails => exact .nothing (nothing [_]) (Or.inl rfl)

theorem stepKinds_stepped (stepped : Stepped state step) :
    ∃ layout, StartsLine state layout ∧ StepKinds layout step := by
  have noLayout {read : LexState} {step : LexStep} (reads : Reads read step) :
      ∃ layout, StartsLine state layout ∧ StepKinds layout step :=
    ⟨[], Or.inl rfl, stepKinds_reads [] reads fun _ => rfl⟩
  cases stepped with
  | inString _ reads => exact noLayout reads
  | inBrackets _ _ reads => exact noLayout reads
  | inLine _ _ _ _ reads => exact noLayout reads
  | blank _ _ _ reads => exact noLayout reads
  | @line line _ _ noBrackets starts something reads =>
    refine ⟨kinds line.pastBlank.indentation.1, Or.inr ⟨brackets_eq_zero noBrackets, ?_⟩, ?_⟩
    · rw [kinds_indentation_eq, ← starts.layout.1]
      exact ⟨_, rfl⟩
    · exact stepKinds_reads _ reads fun nothing => absurd nothing (code_of_blankLines _ something)

theorem stepKinds_proceed (cancelled : Bool) (state : LexState) :
    ∃ layout, StartsLine state layout ∧ StepKinds layout (state.proceed cancelled) := by
  cases cancelled with
  | true => exact ⟨[], Or.inl rfl, .nothing rfl (Or.inl rfl)⟩
  | false => exact stepKinds_stepped (stepped state)

end LexState

/-! ## Requests -/

/-- Where the layout among some items stands, given the state after them. -/
structure LaidOut (items : List LexItem) (state : LexState) : Prop where
  outside : ∃ ordinary ending, kinds items = ordinary ++ ending ∧ Kind.LayoutOutside 0 ordinary ∧
    (ending ≠ [] → state.finished = true ∧
      ∃ levels, ending = List.replicate levels .dedent ++ [.endOfInput])
  /-- Behind the tokens in lines there is layout only where the tokens end in an error. -/
  inLines : (∀ item ∈ items, item.isUnexpected = false) →
    ∃ lines tail, kinds items = lines ++ tail ∧ Kind.InLines false lines ∧
      (∀ kind ∈ tail, kind.isLayout = true) ∧
      (state.finished = false → tail = [] ∧ (lines = [] → state.layout.started = false))

variable {items : List LexItem} {state : LexState} {step : LexStep} {layout : List Kind}

theorem LaidOut.outside_append (laidOut : LaidOut items state) (running : state.finished = false)
    (counted : state.layout.brackets = Kind.bracketsOf 0 (kinds items))
    (starts : state.StartsLine layout) (shape : LexState.StepKinds layout step) :
    ∃ ordinary ending, kinds (items ++ step.1) = ordinary ++ ending ∧
      Kind.LayoutOutside 0 ordinary ∧ (ending ≠ [] → step.2.finished = true ∧
        ∃ levels, ending = List.replicate levels .dedent ++ [.endOfInput]) := by
  obtain ⟨ordinary, ending, whole, outside, closing⟩ := laidOut.outside
  obtain rfl : ending = [] := by_contra fun more =>
    absurd (running.symm.trans (closing more).1) Bool.false_ne_true
  rw [List.append_nil] at whole
  have line := starts.layoutOutside
  rw [counted, whole] at line
  have earlier := Kind.layoutOutside_append.mpr ⟨outside, line⟩
  rw [kinds_append, whole]
  cases shape with
  | @text kind isText found =>
    refine ⟨ordinary ++ layout ++ [kind], [], by simp [found], ?_, fun more => absurd rfl more⟩
    refine Kind.layoutOutside_append.mpr ⟨earlier, fun structural => ?_, trivial⟩
    exact absurd (isText.symm.trans structural) Bool.false_ne_true
  | nothing found _ =>
    exact ⟨ordinary ++ layout, [], by simp [found], earlier, fun more => absurd rfl more⟩
  | ends levels _ ended found => exact ⟨ordinary, _, rfl, outside, fun _ => ⟨ended, levels, found⟩⟩

theorem LaidOut.inLines_append (laidOut : LaidOut items state) (running : state.finished = false)
    (starts : state.StartsLine layout) (shape : LexState.StepKinds layout step)
    (expected : ∀ item ∈ items ++ step.1, item.isUnexpected = false) :
    ∃ lines tail, kinds (items ++ step.1) = lines ++ tail ∧ Kind.InLines false lines ∧
      (∀ kind ∈ tail, kind.isLayout = true) ∧
      (step.2.finished = false → tail = [] ∧ (lines = [] → step.2.layout.started = false)) := by
  obtain ⟨lines, tail, whole, inLines, _, goesOn⟩ :=
    laidOut.inLines fun item member => expected item (List.mem_append_left _ member)
  obtain ⟨rfl, unstarted⟩ := goesOn running
  rw [List.append_nil] at whole
  have noTail : ∀ kind ∈ ([] : List Kind), kind.isLayout = true :=
    fun _ member => absurd member List.not_mem_nil
  rw [kinds_append, whole]
  cases shape with
  | @text kind isText found =>
    refine ⟨lines ++ (layout ++ [kind]), [], by simp [found], ?_, noTail,
      fun _ => ⟨rfl, fun nothing => ?_⟩⟩
    · refine inLines.append starts.ofLine (fun member => ⟨fun nothing => ?_, fun isEnd => ?_⟩)
        (Kind.isLayout_eq_false_of_text isText)
      · exact absurd ((unstarted nothing).symm.trans (starts.started member)) Bool.false_ne_true
      · rw [isEnd] at isText
        contradiction
    · simp at nothing
  | nothing found stopped =>
    refine ⟨lines, layout, by rw [found], inLines, starts.ofLine.isLayout, fun unfinished => ?_⟩
    rcases stopped with finished | ⟨item, member, unexpected⟩
    · exact absurd (unfinished.symm.trans finished) Bool.false_ne_true
    · have isExpected := expected item (List.mem_append_right _ member)
      exact absurd (isExpected.symm.trans unexpected) Bool.false_ne_true
  | ends levels _ ended found =>
    refine ⟨lines ++ (List.replicate levels .dedent ++ [.endOfInput]), [], by simp [found], ?_, noTail,
      fun unfinished => absurd (unfinished.symm.trans ended) Bool.false_ne_true⟩
    refine inLines.append (Kind.ofLine_replicate_dedent levels) (fun member => ?_) rfl
    exact absurd (List.eq_of_mem_replicate member) Kind.noConfusion

theorem laidOut_ofSource (tabWidth : Nat) (source : List Char) :
    LaidOut [] (.ofSource tabWidth source) := by
  unfold LexState.ofSource
  exact ⟨⟨[], [], rfl, trivial, fun more => absurd rfl more⟩,
    fun _ => ⟨[], [], rfl, .nil, fun _ member => absurd member List.not_mem_nil,
      fun _ => ⟨rfl, fun _ => rfl⟩⟩⟩

theorem laidOut_drawn (tabWidth : Nat) (source : List Char) (requests : List Bool) :
    Brackets ((Lexer.ofSource tabWidth source).drawn requests)
        ((Lexer.ofSource tabWidth source).afterRequests requests).state ∧
      LaidOut ((Lexer.ofSource tabWidth source).drawn requests)
        ((Lexer.ofSource tabWidth source).afterRequests requests).state := by
  refine Lexer.drawn_induction (motive := fun items state => Brackets items state ∧ LaidOut items state)
    (fun cancelled items state running ⟨brackets, laidOut⟩ => ?_) requests
    ⟨brackets_ofSource tabWidth source, laidOut_ofSource tabWidth source⟩
  obtain ⟨layout, starts, shape⟩ := state.stepKinds_proceed cancelled
  exact ⟨brackets_proceed cancelled running brackets,
    laidOut.outside_append running brackets.counted starts shape,
    laidOut.inLines_append running starts shape⟩

/-- Layout is outside of brackets, or it is a dedent among those that close the levels at the end. -/
theorem LaidOut.isLayout_cases (laidOut : LaidOut items state) {before after : List Kind} {kind : Kind}
    (split : kinds items = before ++ kind :: after) (isLayout : kind.isLayout = true) :
    Kind.bracketsOf 0 before = 0 ∨
      kind = .dedent ∧ ∃ levels, after = List.replicate levels .dedent ++ [.endOfInput] := by
  obtain ⟨ordinary, ending, whole, outside, closing⟩ := laidOut.outside
  have inEnding {inner : List Kind} (more : ending = inner ++ kind :: after) :
      kind = .dedent ∧ ∃ levels, after = List.replicate levels .dedent ++ [.endOfInput] := by
    obtain ⟨_, levels, rfl⟩ := closing fun nothing => by simp [nothing] at more
    exact Kind.replicate_dedent_cases isLayout more
  rcases List.append_eq_append_iff.mp (whole.symm.trans split) with
    ⟨inner, _, more⟩ | ⟨inner, isOrdinary, more⟩
  · exact Or.inr (inEnding more)
  · cases inner with
    | nil => exact Or.inr (inEnding (show ending = [] ++ kind :: after from more.symm))
    | cons other inner =>
      obtain ⟨rfl, _⟩ := List.cons.inj more
      rw [isOrdinary] at outside
      exact Or.inl (outside.bracketsOf_eq_zero (Kind.isStructural_of_isLayout isLayout))

/-- Layout is in normal form. Whatever was asked for of a text, the lexer counts the brackets that
its tokens leave open, and layout comes where none is, but for the dedents at the end. If no
character was passed over, then layout between two tokens that are none is a newline, an indent or
some dedents, and no newline stands in front of the first such token or of the end. -/
theorem layout_normalForm (settings : Settings) (source : List Char) (requests : List Bool) :
    let lexer := Lexer.ofSource settings.tabWidth source
    let found := kinds (lexer.drawn requests)
    (lexer.afterRequests requests).state.layout.brackets = Kind.bracketsOf 0 found ∧
      (∀ before kind after, found = before ++ kind :: after → kind.isLayout = true →
        Kind.bracketsOf 0 before = 0 ∨
          kind = .dedent ∧ ∃ levels, after = List.replicate levels .dedent ++ [.endOfInput]) ∧
      ((∀ item ∈ lexer.drawn requests, item.isUnexpected = false) →
        (∀ before first run last after, found = before ++ first :: (run ++ last :: after) →
          first.isLayout = false → (∀ kind ∈ run, kind.isLayout = true) → last.isLayout = false →
          (run = [] ∨ run = [.newline] ∨ run = [.indent] ∨
            ∃ levels, run = List.replicate (levels + 1) .dedent) ∧
          (last = .endOfInput → .newline ∉ run)) ∧
        ∀ run last after, found = run ++ last :: after → (∀ kind ∈ run, kind.isLayout = true) →
          last.isLayout = false → .newline ∉ run) := by
  intro lexer found
  obtain ⟨brackets, laidOut⟩ := laidOut_drawn settings.tabWidth source requests
  refine ⟨brackets.counted, fun before kind after => laidOut.isLayout_cases, fun expected => ?_⟩
  obtain ⟨lines, tail, whole, inLines, inTail, _⟩ := laidOut.inLines expected
  refine ⟨fun before first run last after split isFirst inRun text => ?_,
    fun run last after split inRun text member => ?_⟩
  · obtain ⟨ofLine, noNewline⟩ := inLines.between inTail inRun isFirst text (whole.symm.trans split)
    exact ⟨ofLine.cases, fun isEnd member => noNewline member isEnd⟩
  · have opening := inLines.opening inTail inRun text (whole.symm.trans split)
    exact absurd (opening.2 member).1 Bool.false_ne_true

/-- A call whose arguments are wrapped, indented code behind a blank line and a comment, and two
levels that are closed at once. -/
theorem layout_normalForm_nested :
    let lexer := Lexer.ofSource 8 "  f (\n1)\n\n    /* x\n */ a\n      b\n  c".toList
    let requests := List.replicate 16 false
    let found := kinds (lexer.drawn requests)
    let call : List Kind := [.identifier, .symbol .leftParen, .integer 1, .symbol .rightParen]
    let block : List Kind := [.indent, .identifier, .indent, .identifier]
    let closing : List Kind := [.dedent, .dedent, .identifier, .dedent, .endOfInput]
    found = .indent :: (call ++ block ++ closing) ∧
      (lexer.afterRequests requests).state.layout.brackets = Kind.bracketsOf 0 found ∧
      (Kind.bracketsOf 0 (.indent :: call) = 0 ∨
        Kind.indent = .dedent ∧ ∃ levels, [.identifier, .indent, .identifier] ++ closing =
          List.replicate levels .dedent ++ [.endOfInput]) ∧
      (∀ item ∈ lexer.drawn requests, item.isUnexpected = false) ∧
      (([.dedent, .dedent] : List Kind) = [] ∨ ([.dedent, .dedent] : List Kind) = [.newline] ∨
        ([.dedent, .dedent] : List Kind) = [.indent] ∨
        ∃ levels, ([.dedent, .dedent] : List Kind) = List.replicate (levels + 1) .dedent) ∧
      Kind.newline ∉ [Kind.indent] := by
  intro lexer requests found call block closing
  have shown : found = .indent :: (call ++ block ++ closing) := by decide +kernel
  have expected : ∀ item ∈ lexer.drawn requests, item.isUnexpected = false := by decide +kernel
  obtain ⟨counted, outside, normal⟩ :=
    layout_normalForm {} "  f (\n1)\n\n    /* x\n */ a\n      b\n  c".toList requests
  obtain ⟨between, opening⟩ := normal expected
  refine ⟨shown, counted, outside (.indent :: call) .indent _ shown rfl, expected, ?_, ?_⟩
  · exact (between (Kind.indent :: (call ++ [Kind.indent, Kind.identifier, Kind.indent]))
      .identifier [.dedent, .dedent] .identifier [.dedent, .endOfInput] shown rfl (by decide) rfl).1
  · exact opening [.indent] .identifier _ shown (by decide) rfl

end Offside
