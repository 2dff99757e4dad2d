import Offside.Proofs.Lexer.Strings

/-!
Brackets and layout. One counter stands for all brackets, those of interpolations among them, and
a bracket that closes nothing changes nothing. So the counter can come to zero inside of an
interpolation whose code closes more brackets than it opens, and then lines have a layout there.
The code of an interpolation that closes only brackets of its own has none.
-/

namespace Offside

open LexStream LexMode

namespace Kind

def closesBracket : Kind → Bool
  | .symbol .rightParen | .symbol .rightBracket | .symbol .rightCurly | .interpolationEnd => true
  | _ => false

/-- The brackets open after some tokens, where some were open before. -/
def bracketsOf (brackets : Nat) (kinds : List Kind) : Nat :=
  kinds.foldl (fun brackets kind => kind.bracketsAfter brackets) brackets

/-- The brackets that some tokens open and do not close, if none of them closes a bracket that
none of them opened. -/
def surplus? : Nat → List Kind → Option Nat
  | surplus, [] => some surplus
  | surplus, kind :: kinds =>
    if kind.closesBracket = true ∧ surplus = 0 then none
    else surplus? (kind.bracketsAfter surplus) kinds

/-- Tokens that stand for the layout of lines come where no bracket is open. -/
def LayoutOutside : Nat → List Kind → Prop
  | _, [] => True
  | brackets, kind :: kinds =>
    (kind.isStructural = true → brackets = 0) ∧ LayoutOutside (kind.bracketsAfter brackets) kinds

variable {kind : Kind} {brackets : Nat}

theorem bracketsOf_append (brackets : Nat) (left right : List Kind) :
    bracketsOf brackets (left ++ right) = bracketsOf (bracketsOf brackets left) right :=
  List.foldl_append

theorem layoutOutside_append {left right : List Kind} :
    LayoutOutside brackets (left ++ right) ↔
      LayoutOutside brackets left ∧ LayoutOutside (bracketsOf brackets left) right := by
  induction left generalizing brackets with
  | nil => exact ⟨fun outside => ⟨trivial, outside⟩, fun outside => outside.2⟩
  | cons kind left inductionHypothesis =>
    rw [List.cons_append, LayoutOutside, LayoutOutside, inductionHypothesis, and_assoc]
    rfl

theorem bracketsAfter_of_structural (structural : kind.isStructural = true) (brackets : Nat) :
    kind.bracketsAfter brackets = brackets := by
  cases kind <;> first | rfl | contradiction

theorem bracketsOf_of_structural {kinds : List Kind}
    (structural : ∀ kind ∈ kinds, kind.isStructural = true) (brackets : Nat) :
    bracketsOf brackets kinds = brackets := by
  induction kinds with
  | nil => rfl
  | cons kind kinds inductionHypothesis =>
    rw [bracketsOf, List.foldl_cons,
      bracketsAfter_of_structural (structural kind List.mem_cons_self)]
    exact inductionHypothesis fun other member => structural other (List.mem_cons_of_mem _ member)

theorem layoutOutside_of_structural {kinds : List Kind}
    (structural : ∀ kind ∈ kinds, kind.isStructural = true) : LayoutOutside 0 kinds := by
  induction kinds with
  | nil => trivial
  | cons kind kinds inductionHypothesis =>
    refine ⟨fun _ => rfl, ?_⟩
    rw [bracketsAfter_of_structural (structural kind List.mem_cons_self)]
    exact inductionHypothesis fun other member => structural other (List.mem_cons_of_mem _ member)

/-- Where a token closes only what is open above some base, the base makes no difference. -/
theorem bracketsAfter_add (base surplus : Nat)
    (owned : ¬ (kind.closesBracket = true ∧ surplus = 0)) :
    kind.bracketsAfter (base + surplus) = base + kind.bracketsAfter surplus := by
  have closes {kind : Kind} (closesBracket : kind.closesBracket = true)
      (owned : ¬ (kind.closesBracket = true ∧ surplus = 0)) :
      base + surplus - 1 = base + (surplus - 1) := by
    have positive : surplus ≠ 0 := fun zero => owned ⟨closesBracket, zero⟩
    omega
  cases kind with
  | interpolationEnd => exact closes rfl owned
  | symbol symbol =>
    cases symbol with
    | rightParen => exact closes rfl owned
    | rightBracket => exact closes rfl owned
    | rightCurly => exact closes rfl owned
    | _ => rfl
  | _ => rfl

/-- Tokens that close only brackets of their own add what they leave open, and have no layout
where a bracket is open before them. -/
theorem of_surplus? (base : Nat) {surplus total : Nat} {kinds : List Kind}
    (owned : surplus? surplus kinds = some total) :
    bracketsOf (base + surplus) kinds = base + total ∧
      (0 < base → LayoutOutside (base + surplus) kinds →
        ∀ kind ∈ kinds, kind.isStructural = false) := by
  induction kinds generalizing surplus with
  | nil =>
    obtain rfl := Option.some.inj owned
    exact ⟨rfl, fun _ _ _ member => absurd member List.not_mem_nil⟩
  | cons kind kinds inductionHypothesis =>
    rw [surplus?] at owned
    split at owned
    next => contradiction
    next closesOwn =>
      obtain ⟨counted, plain⟩ := inductionHypothesis owned
      have moved := bracketsAfter_add base surplus closesOwn
      refine ⟨?_, fun positive outside other member => ?_⟩
      · rw [bracketsOf, List.foldl_cons, moved]
        exact counted
      · obtain ⟨first, later⟩ := outside
        rw [moved] at later
        rcases List.mem_cons.mp member with rfl | inKinds
        · refine eq_false_of_ne_true fun structural => ?_
          have noneOpen := first structural
          omega
        · exact plain positive later other inKinds

/-- An interpolation whose code closes only brackets of its own adds what that leaves open. -/
theorem of_interpolation (before : List Kind) {inside : List Kind} {surplus : Nat}
    (owned : surplus? 0 inside = some surplus) :
    bracketsOf 0 (before ++ [.interpolationStart] ++ inside ++ [.interpolationEnd]) =
        bracketsOf 0 before + surplus ∧
      (LayoutOutside 0 (before ++ [.interpolationStart] ++ inside ++ [.interpolationEnd]) →
        ∀ kind ∈ inside, kind.isStructural = false) := by
  obtain ⟨counted, plain⟩ := of_surplus? (bracketsOf 0 before + 1) owned
  have opened : bracketsOf 0 (before ++ [.interpolationStart]) = bracketsOf 0 before + 1 := by
    rw [bracketsOf_append]
    rfl
  refine ⟨?_, fun outside => ?_⟩
  · rw [bracketsOf_append, bracketsOf_append, opened]
    refine (congrArg (· - 1) counted).trans ?_
    omega
  · rw [layoutOutside_append, layoutOutside_append, opened] at outside
    exact plain (Nat.succ_pos _) outside.1.2

end Kind

/-! ## Steps -/

namespace LexState

variable {before state after middle line : LexState} {step : LexStep} {kind : Kind}
  {split : Scan.Split} {errors : List LexError}

/-- How a step counts brackets, and where its layout stands. -/
structure BracketShape (before : LexState) (step : LexStep) : Prop where
  counted : step.2.layout.brackets = Kind.bracketsOf before.layout.brackets (kinds step.1)
  outside : step.2.finished = false → Kind.LayoutOutside before.layout.brackets (kinds step.1)
  ending : step.2.finished = true → ∀ kind ∈ kinds step.1, kind.isStructural = true
  /-- At most the last token is one of text. -/
  single : (kinds step.1).Pairwise fun earlier _ => earlier.isStructural = true
  first : .interpolationStart ∉ kinds step.1.tail

theorem bracketShape_yield (running : state.finished = false)
    (piece : IsPiece state kind split after) :
    BracketShape state (after.yield kind split errors) := by
  have found := kinds_yield after kind split errors
  refine ⟨?_, fun _ => ?_, fun ended => ?_, ?_, ?_⟩
  · rw [found]
    exact piece.brackets
  · rw [found]
    refine ⟨fun structural => ?_, trivial⟩
    exact absurd (piece.structural.symm.trans structural) Bool.false_ne_true
  · exact absurd ((piece.finished.trans running).symm.trans ended) Bool.false_ne_true
  · rw [found]
    exact List.pairwise_singleton _ _
  · rw [yield, List.tail_cons, kinds_map_error]
    exact List.not_mem_nil

theorem kinds_finish (state : LexState) : ∀ kind ∈ kinds state.finish.1, kind.isStructural = true := by
  intro kind member
  cases closed : state.openString? with
  | none =>
    rw [kinds_finish_of_closed closed] at member
    exact isStructural_of_mem_ending member
  | some start =>
    unfold finish at member
    rw [closed] at member
    exact absurd member List.not_mem_nil

theorem kinds_tail_subset (items : List LexItem) : kinds items.tail ⊆ kinds items := by
  cases items with
  | nil => exact List.Subset.refl _
  | cons item items =>
    rw [List.tail_cons, kinds_cons]
    exact List.subset_append_right _ _

/-- A step without tokens of text. If there are more to come it is one without any tokens. -/
theorem bracketShape_of_structural (counted : step.2.layout.brackets = before.layout.brackets)
    (outside : step.2.finished = false → kinds step.1 = [])
    (structural : ∀ kind ∈ kinds step.1, kind.isStructural = true) : BracketShape before step := by
  refine ⟨?_, fun running => ?_, fun _ => structural, ?_, fun member => ?_⟩
  · rw [Kind.bracketsOf_of_structural structural]
    exact counted
  · rw [outside running]
    trivial
  · exact List.pairwise_of_forall_mem_list fun earlier inKinds _ _ => structural earlier inKinds
  · exact absurd (structural _ (kinds_tail_subset _ member)) Bool.false_ne_true

theorem bracketShape_finish (state : LexState) : BracketShape state state.finish := by
  refine bracketShape_of_structural ?_ (fun running => ?_) (kinds_finish state)
  · unfold finish
    split <;> rfl
  · exact absurd (running.symm.trans (finished_finish state)) Bool.false_ne_true

theorem Fails.brackets {construct : Unterminated} {span : Span}
    (fails : Fails state middle construct span) : middle.layout.brackets = state.layout.brackets := by
  cases fails <;> rfl

theorem bracketShape_reads (running : state.finished = false) (reads : Reads state step) :
    BracketShape state step := by
  cases reads with
  | code _ takes => exact bracketShape_yield running takes.isPiece
  | part _ takes => exact bracketShape_yield running takes.isPiece
  | unexpected _ _ =>
    exact bracketShape_of_structural rfl (fun _ => rfl) fun _ member => absurd member List.not_mem_nil
  | ends _ _ => exact bracketShape_finish state
  | fails fails =>
    exact bracketShape_of_structural fails.brackets (fun _ => rfl)
      fun _ member => absurd member List.not_mem_nil

/-- Code starts no interpolation. -/
theorem not_interpolationStart_of_reads (outside : ¬ InString state.modes) (reads : Reads state step) :
    .interpolationStart ∉ kinds step.1 := by
  have plain {kind : Kind} (isPlain : kind.IsPlain) : .interpolationStart ≠ kind := by
    rintro rfl
    exact absurd isPlain.ofString Bool.noConfusion
  cases reads with
  | code _ takes =>
    rw [kinds_yield, List.mem_singleton]
    cases takes with
    | stringStart => exact Kind.noConfusion
    | character => exact Kind.noConfusion
    | wrongCharacter => exact Kind.noConfusion
    | number => exact plain (Kind.isPlain_evaluate _)
    | word _ found =>
      obtain ⟨split, _, rfl⟩ := Option.map_eq_some_iff.mp found
      exact plain (Kind.isPlain_ofWord _)
    | symbol =>
      rcases bracket_modes state _ with ⟨_, _, isEnd, _⟩ | ⟨isSymbol, _⟩
      · exact isEnd ▸ Kind.noConfusion
      · exact isSymbol ▸ Kind.noConfusion
  | part inside _ => exact absurd inside outside
  | unexpected _ _ => exact List.not_mem_nil
  | ends _ _ => exact fun member => absurd (kinds_finish state _ member) Bool.false_ne_true
  | fails fails => exact List.not_mem_nil

theorem BracketShape.after_indentation (shape : BracketShape after step)
    (same : after.layout.brackets = before.layout.brackets) (noneOpen : before.layout.brackets = 0)
    (code : .interpolationStart ∉ kinds step.1) :
    BracketShape before (state.indentation.1 ++ step.1, step.2) := by
  have layout : ∀ kind ∈ kinds state.indentation.1, kind.isStructural = true := by
    intro kind member
    rcases state.kinds_indentation member with rfl | rfl | rfl
    · rfl
    · rfl
    · rfl
  obtain ⟨counted, outside, ending, single, first⟩ := shape
  rw [same, noneOpen] at counted outside
  refine ⟨?_, fun running => ?_, fun ended kind member => ?_, ?_, fun member => ?_⟩
  · rw [kinds_append, Kind.bracketsOf_append, Kind.bracketsOf_of_structural layout, noneOpen]
    exact counted
  · rw [kinds_append, Kind.layoutOutside_append, Kind.bracketsOf_of_structural layout, noneOpen]
    exact ⟨Kind.layoutOutside_of_structural layout, outside running⟩
  · rw [kinds_append] at member
    exact (List.mem_append.mp member).elim (layout kind) (ending ended kind)
  · rw [kinds_append]
    refine List.pairwise_append.mpr ⟨?_, single, fun earlier inLayout _ _ => layout earlier inLayout⟩
    exact List.pairwise_of_forall_mem_list fun earlier inLayout _ _ => layout earlier inLayout
  · have inAll := kinds_tail_subset _ member
    rw [kinds_append] at inAll
    rcases List.mem_append.mp inAll with inLayout | inCode
    · exact absurd (layout _ inLayout) Bool.false_ne_true
    · exact code inCode

theorem brackets_eq_zero (noBrackets : state.layout.inBrackets = false) :
    state.layout.brackets = 0 :=
  Nat.eq_zero_of_not_pos (of_decide_eq_false noBrackets)

theorem LineStarts.layout (starts : LineStarts state line) :
    line.layout = state.layout ∧ line.lastKind = state.lastKind := by
  cases starts with
  | here _ => exact ⟨rfl, rfl⟩
  | next _ _ => exact ⟨rfl, rfl⟩

theorem LineStarts.brackets (starts : LineStarts state line) :
    line.layout.brackets = state.layout.brackets := by
  rw [starts.layout.1]

/-- The layout of a line leaves the brackets alone. -/
theorem brackets_line (layout : Layout) (width : Nat) :
    (layout.line width).2.brackets = layout.brackets := by
  unfold Layout.line
  dsimp only
  split
  · rfl
  · split
    · rfl
    · split <;> rfl

theorem brackets_atCode (line : LexState) : line.atCode.layout.brackets = line.layout.brackets :=
  brackets_line _ _

/-- Passing over a gap changes nothing about brackets. -/
theorem BracketShape.of_brackets (shape : BracketShape after step)
    (same : after.layout.brackets = before.layout.brackets) : BracketShape before step := by
  obtain ⟨counted, outside, ending, single, first⟩ := shape
  rw [same] at counted outside
  exact ⟨counted, outside, ending, single, first⟩

theorem bracketShape_stepped (running : state.finished = false) (stepped : Stepped state step) :
    BracketShape state step := by
  cases stepped with
  | inString inside reads => exact bracketShape_reads running reads
  | inBrackets _ _ reads =>
    have shape := bracketShape_reads (by exact running) reads
    exact shape.of_brackets rfl
  | inLine _ _ _ _ reads =>
    have shape := bracketShape_reads (by exact running) reads
    exact shape.of_brackets rfl
  | blank _ _ starts reads =>
    have shape := bracketShape_reads (by exact starts.finished.trans running) reads
    exact shape.of_brackets starts.brackets
  | line outside noBrackets starts _ reads =>
    have shape := bracketShape_reads (by exact starts.finished.trans running) reads
    have outsideLine : ¬ InString (atCode _).modes := fun inside =>
      outside (starts.modes ▸ inside)
    exact shape.after_indentation ((brackets_atCode _).trans starts.brackets)
      (brackets_eq_zero noBrackets) (not_interpolationStart_of_reads outsideLine reads)

theorem bracketShape_proceed (cancelled : Bool) (running : state.finished = false) :
    BracketShape state (state.proceed cancelled) := by
  cases cancelled with
  | true =>
    exact bracketShape_of_structural rfl (fun _ => rfl) fun _ member => absurd member List.not_mem_nil
  | false => exact bracketShape_stepped running (stepped state)

end LexState

/-! ## Requests -/

/-- How the brackets of a lexer follow from the items before its state. -/
structure Brackets (items : List LexItem) (state : LexState) : Prop where
  counted : state.layout.brackets = Kind.bracketsOf 0 (kinds items)
  /-- Layout in brackets comes only at the end of all tokens. -/
  outside : ∃ ordinary ending, kinds items = ordinary ++ ending ∧
    Kind.LayoutOutside 0 ordinary ∧ (∀ kind ∈ ending, kind.isStructural = true) ∧
    (state.finished = false → ending = [])

theorem brackets_proceed (cancelled : Bool) {items : List LexItem} {state : LexState}
    (running : state.finished = false) (brackets : Brackets items state) :
    Brackets (items ++ (state.proceed cancelled).1) (state.proceed cancelled).2 := by
  have shape := LexState.bracketShape_proceed cancelled running
  obtain ⟨counted, ordinary, ending, whole, layout, _, noEnding⟩ := brackets
  rw [noEnding running, List.append_nil] at whole
  refine ⟨?_, ?_⟩
  · rw [kinds_append, Kind.bracketsOf_append, ← counted]
    exact shape.counted
  · rw [kinds_append, whole]
    cases ended : (state.proceed cancelled).2.finished with
    | true =>
      exact ⟨ordinary, _, rfl, layout, shape.ending ended,
        fun running => absurd running Bool.noConfusion⟩
    | false =>
      refine ⟨ordinary ++ _, [], (List.append_nil _).symm, ?_,
        fun _ member => absurd member List.not_mem_nil, fun _ => rfl⟩
      rw [Kind.layoutOutside_append, ← whole, ← counted]
      exact ⟨whole ▸ layout, shape.outside ended⟩

theorem brackets_ofSource (tabWidth : Nat) (source : List Char) :
    Brackets [] (.ofSource tabWidth source) := by
  unfold LexState.ofSource
  exact ⟨rfl, [], [], rfl, trivial, fun _ member => absurd member List.not_mem_nil, fun _ => rfl⟩

namespace Lexer

theorem brackets_drawn (tabWidth : Nat) (source : List Char) (requests : List Bool) :
    Brackets ((ofSource tabWidth source).drawn requests)
      ((ofSource tabWidth source).afterRequests requests).state :=
  drawn_induction
    (fun cancelled _ _ running brackets => brackets_proceed cancelled running brackets) requests
    (brackets_ofSource tabWidth source)

/-- A lexer is where a bracket is open, so that lines have no layout. -/
def inBrackets (lexer : Lexer) : Bool :=
  lexer.state.layout.inBrackets

/-- The items queued behind those yielded: no interpolation starts among them, and behind a token of
text there is no token. -/
structure Queued (yielded : List LexItem) (lexer : Lexer) : Prop where
  single : (kinds lexer.pending).Pairwise fun earlier _ => earlier.isStructural = true
  noStart : .interpolationStart ∉ kinds lexer.pending
  last : ∀ older token, yielded = older ++ [.token token] → token.kind.isStructural = false →
    kinds lexer.pending = []

/-- What is left of the items of a step when the first of them is yielded. -/
theorem queued_of_single {state : LexState} {item : LexItem} {pending yielded : List LexItem}
    (single : (kinds (item :: pending)).Pairwise fun earlier _ => earlier.isStructural = true)
    (noStart : .interpolationStart ∉ kinds pending) :
    Queued (yielded ++ [item]) ⟨state, pending⟩ := by
  rw [kinds_cons] at single
  obtain ⟨_, later, before⟩ := List.pairwise_append.mp single
  refine ⟨later, noStart, fun older token isLast text => ?_⟩
  obtain ⟨_, isToken⟩ := List.append_inj' isLast rfl
  obtain rfl := (List.cons.inj isToken).1
  refine List.eq_nil_iff_forall_not_mem.mpr fun kind member => ?_
  exact absurd (text.symm.trans (before token.kind List.mem_cons_self kind member)) Bool.false_ne_true

theorem queued_advance (cancelled : Bool) {yielded : List LexItem} {lexer : Lexer}
    (queued : Queued yielded lexer) :
    Queued (yielded ++ (lexer.answer cancelled).toList) (lexer.advance cancelled) := by
  obtain ⟨state, pending⟩ := lexer
  cases pending with
  | cons item pending =>
    refine queued_of_single queued.single fun member => queued.noStart ?_
    rw [kinds_cons]
    exact List.mem_append_right _ member
  | nil =>
    cases finished : state.finished with
    | true => simpa [answer, advance, next?_of_finished cancelled finished] using queued
    | false =>
      obtain ⟨item, pending, equality, found⟩ := next?_of_running cancelled finished
      have shape := LexState.bracketShape_proceed cancelled finished
      rw [answer, advance, found]
      exact queued_of_single (equality ▸ shape.single) (by
        have first := shape.first
        rwa [equality, List.tail_cons] at first)

theorem queued_afterRequests (requests : List Bool) {yielded : List LexItem} {lexer : Lexer}
    (queued : Queued yielded lexer) :
    Queued (yielded ++ lexer.answers requests) (lexer.afterRequests requests) := by
  induction requests generalizing yielded lexer with
  | nil => rwa [answers, List.append_nil]
  | cons cancelled requests inductionHypothesis =>
    rw [answers, ← List.append_assoc]
    exact inductionHypothesis (queued_advance cancelled queued)

/-- Nothing is queued before an interpolation, so that all brackets counted are those of the items
yielded. -/
theorem counted_of_interpolationStart {yielded : List LexItem} {lexer after : Lexer}
    (brackets : Brackets (yielded ++ lexer.pending) lexer.state) (queued : Queued yielded lexer)
    {cancelled : Bool} {opening : Token} (next : lexer.next? cancelled = some (.token opening, after))
    (starts : opening.kind = .interpolationStart) :
    lexer.state.layout.brackets = Kind.bracketsOf 0 (kinds yielded) := by
  obtain ⟨state, pending⟩ := lexer
  cases pending with
  | nil =>
    have counted := brackets.counted
    rwa [List.append_nil] at counted
  | cons item pending =>
    obtain ⟨rfl, _⟩ := Prod.mk.inj (Option.some.inj next)
    exact absurd (List.mem_cons.mpr (Or.inl starts.symm)) queued.noStart

/-- Behind a token of text nothing is queued that counts, and all layout so far came outside of
brackets. -/
theorem counted_of_text {older : List LexItem} {token : Token} {lexer : Lexer}
    (brackets : Brackets (older ++ [.token token] ++ lexer.pending) lexer.state)
    (queued : Queued (older ++ [.token token]) lexer) (text : token.kind.isStructural = false) :
    lexer.state.layout.brackets = Kind.bracketsOf 0 (kinds older ++ [token.kind]) ∧
      Kind.LayoutOutside 0 (kinds older ++ [token.kind]) := by
  obtain ⟨counted, ordinary, ending, split, layout, structural, _⟩ := brackets
  have shown : kinds (older ++ [.token token] ++ lexer.pending) = kinds older ++ [token.kind] := by
    rw [kinds_append, queued.last older token rfl text, List.append_nil, kinds_append]
    rfl
  rw [shown] at counted split
  rcases List.eq_nil_or_concat' ending with rfl | ⟨initial, kind, rfl⟩
  · rw [List.append_nil] at split
    exact ⟨counted, split ▸ layout⟩
  · rw [← List.append_assoc] at split
    obtain ⟨_, isLast⟩ := List.append_inj' split rfl
    obtain rfl := (List.cons.inj isLast).1
    exact absurd (text.symm.trans (structural _ (List.mem_append_right _ List.mem_cons_self)))
      Bool.false_ne_true

end Lexer

/-- If the code of an interpolation closes only brackets that it opened, then none of its lines has
a layout, and behind it a bracket is open if one was open before it or is left open in it. -/
theorem layout_of_interpolation (settings : Settings) (source : List Char) {requests : List Bool}
    {before inside : List LexItem} {opening closing : Token} {surplus : Nat}
    (whole : (Lexer.ofSource settings.tabWidth source).answers requests =
      before ++ .token opening :: (inside ++ [.token closing]))
    (starts : opening.kind = .interpolationStart) (ends : closing.kind = .interpolationEnd)
    (owned : Kind.surplus? 0 (kinds inside) = some surplus) :
    (∀ kind ∈ kinds inside, kind.isStructural = false) ∧
      ((Lexer.ofSource settings.tabWidth source).afterRequests requests).inBrackets =
        (((Lexer.ofSource settings.tabWidth source).afterRequests
          (requests.take before.length)).inBrackets || decide (0 < surplus)) := by
  have brackets := Lexer.brackets_drawn settings.tabWidth source
  have queued (requests : List Bool) :
      Lexer.Queued ((Lexer.ofSource settings.tabWidth source).answers requests)
        ((Lexer.ofSource settings.tabWidth source).afterRequests requests) := by
    have start : Lexer.Queued [] (.ofSource settings.tabWidth source) :=
      ⟨.nil, List.not_mem_nil, fun _ _ _ _ => rfl⟩
    exact Lexer.queued_afterRequests requests start
  obtain ⟨same, cancelled, after, next⟩ := Lexer.answers_take whole
  have earlier := Lexer.counted_of_interpolationStart (brackets _) (queued _) next starts
  have isLast : before ++ .token opening :: (inside ++ [.token closing]) =
      (before ++ [.token opening] ++ inside) ++ [.token closing] := by simp
  have atEnd := brackets requests
  have queuedAtEnd := queued requests
  rw [Lexer.drawn, whole, isLast] at atEnd
  rw [whole, isLast] at queuedAtEnd
  obtain ⟨later, outside⟩ := Lexer.counted_of_text atEnd queuedAtEnd (ends ▸ rfl)
  rw [same] at earlier
  have shown : kinds (before ++ [.token opening] ++ inside) =
      kinds before ++ [.interpolationStart] ++ kinds inside := by
    rw [kinds_append, kinds_append, ← starts]
    rfl
  rw [shown, ends] at later outside
  obtain ⟨counted, plain⟩ := Kind.of_interpolation (kinds before) owned
  rw [counted, ← earlier] at later
  refine ⟨plain outside, ?_⟩
  unfold Lexer.inBrackets Layout.inBrackets
  rw [later, ← Bool.decide_or]
  exact decide_eq_decide.mpr (by omega)

/-- A token on the first line of a text, between two columns. -/
def Token.between (kind : Kind) (text : String) (first last : Nat) : Token :=
  ⟨kind, text, ⟨⟨first, 1, first + 1⟩, ⟨last, 1, last + 1⟩⟩⟩

theorem layout_of_interpolation_brackets :
    let lexer := Lexer.ofSource 8 "(\"\x7b[1]\x7d\"".toList
    let before : List LexItem :=
      [.token (.between (.symbol .leftParen) "(" 0 1), .token (.between .stringStart "\"" 1 2)]
    let inside : List LexItem :=
      [.token (.between (.symbol .leftBracket) "[" 3 4), .token (.between (.integer 1) "1" 4 5),
        .token (.between (.symbol .rightBracket) "]" 5 6)]
    (lexer.answers (List.replicate 7 false) =
        before ++ .token (.between .interpolationStart "\x7b" 2 3) ::
          (inside ++ [.token (.between .interpolationEnd "\x7d" 6 7)])) ∧
      Kind.surplus? 0 (kinds inside) = some 0 ∧
      (∀ kind ∈ kinds inside, kind.isStructural = false) ∧
      (lexer.afterRequests (List.replicate 7 false)).inBrackets =
        ((lexer.afterRequests (List.replicate 2 false)).inBrackets || decide (0 < 0)) := by
  have answers : (Lexer.ofSource 8 "(\"\x7b[1]\x7d\"".toList).answers (List.replicate 7 false) =
      [.token (.between (.symbol .leftParen) "(" 0 1), .token (.between .stringStart "\"" 1 2)] ++
        .token (.between .interpolationStart "\x7b" 2 3) ::
          ([.token (.between (.symbol .leftBracket) "[" 3 4), .token (.between (.integer 1) "1" 4 5),
            .token (.between (.symbol .rightBracket) "]" 5 6)] ++
            [.token (.between .interpolationEnd "\x7d" 6 7)]) := by
    decide +kernel
  exact ⟨answers, by decide, layout_of_interpolation {} _ answers rfl rfl (by decide)⟩

/-- The code of an interpolation that closes a bracket not its own can have a layout, and can
close a bracket for all that follows. -/
theorem newline_in_interpolation :
    kinds ((Lexer.ofSource 8 "\"\x7b)\nx\x7d\"".toList).answers (List.replicate 8 false)) =
        [.stringStart, .interpolationStart, .symbol .rightParen, .newline, .identifier,
          .interpolationEnd, .stringEnd, .endOfInput] ∧
      ((Lexer.ofSource 8 "(\"\x7b)\x7d\"".toList).afterRequests (List.replicate 2 false)).inBrackets =
        true ∧
      ((Lexer.ofSource 8 "(\"\x7b)\x7d\"".toList).afterRequests (List.replicate 5 false)).inBrackets =
        false := by
  decide +kernel

end Offside
