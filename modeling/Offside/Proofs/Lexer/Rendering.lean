import Offside.Proofs.Lexer.Interpolations
import Offside.Proofs.Lexer.Reread

/-!
The tokens of a text written anew: a space between tokens of code, nothing added inside of strings,
and each line at a fixed width for every level that is open. What is written so is split into the
same tokens as the text was, if that was split without errors.
-/

namespace Offside

open LexStream LexMode

/-! ## Rendering -/

namespace Kind

/-- Behind tokens of these kinds the inside of a string goes on. -/
def entersString : Kind → Bool
  | .stringStart | .stringFragment _ | .interpolationEnd => true
  | _ => false

/-- The levels open after a token. -/
def depthAfter (kind : Kind) (depth : Nat) : Nat :=
  match kind with
  | .indent => depth + 1
  | .dedent => depth - 1
  | _ => depth

end Kind

namespace Lexeme

/-- What is written between the last token and a lexeme of text: nothing on the inside of a string,
a line break with the indentation after tokens of layout, and a space anywhere else. -/
def separator (width depth : Nat) (last : Option Kind) (lexeme : Lexeme) : List Char :=
  match last with
  | none => []
  | some kind =>
    if kind.isStructural then '\n' :: List.replicate (width * depth) ' '
    else if kind.entersString || lexeme.isPart then []
    else [' ']

/-- Lexemes as they are written behind the last token, at the depth after it. Tokens of layout are
written with the lexeme of text that follows them, and not at all if there is none. -/
def rendered (width : Nat) : Nat → Option Kind → List Lexeme → List Char
  | _, _, [] => []
  | depth, last, lexeme :: lexemes =>
    (if lexeme.kind.isStructural then []
      else separator width depth last lexeme ++ lexeme.text.toList) ++
      rendered width (lexeme.kind.depthAfter depth) (some lexeme.kind) lexemes

/-- The levels open after some lexemes. -/
def depthOf (depth : Nat) (lexemes : List Lexeme) : Nat :=
  lexemes.foldl (fun depth lexeme => lexeme.kind.depthAfter depth) depth

/-- The kind of the last token after some lexemes. -/
def lastOf (last : Option Kind) (lexemes : List Lexeme) : Option Kind :=
  lexemes.foldl (fun _ lexeme => some lexeme.kind) last

variable {width depth : Nat} {last : Option Kind} {lexeme : Lexeme}

theorem rendered_append (width depth : Nat) (last : Option Kind) (left right : List Lexeme) :
    rendered width depth last (left ++ right) =
      rendered width depth last left ++
        rendered width (depthOf depth left) (lastOf last left) right := by
  induction left generalizing depth last with
  | nil => rfl
  | cons lexeme left inductionHypothesis =>
    rw [List.cons_append, rendered, rendered, inductionHypothesis, List.append_assoc]
    rfl

theorem rendered_of_structural {lexemes : List Lexeme}
    (structural : ∀ lexeme ∈ lexemes, lexeme.kind.isStructural = true) :
    rendered width depth last lexemes = [] := by
  induction lexemes generalizing depth last with
  | nil => rfl
  | cons lexeme lexemes inductionHypothesis =>
    rw [rendered, if_pos (structural lexeme List.mem_cons_self), List.nil_append]
    exact inductionHypothesis fun other member => structural other (List.mem_cons_of_mem _ member)

theorem rendered_singleton (text : lexeme.kind.isStructural = false) :
    rendered width depth last [lexeme] = separator width depth last lexeme ++ lexeme.text.toList := by
  rw [rendered, if_neg (by simp [text]), rendered, List.append_nil]

/-- A line break or nothing is written behind layout. -/
theorem ended_rendered_of_layout {kind : Kind} (structural : kind.isStructural = true)
    (lexemes : List Lexeme) : Scan.Ended (rendered width depth (some kind) lexemes) := by
  induction lexemes generalizing depth kind with
  | nil => exact Scan.ended_nil
  | cons lexeme lexemes inductionHypothesis =>
    rw [rendered]
    cases isLayout : lexeme.kind.isStructural with
    | true =>
      rw [if_pos rfl, List.nil_append]
      exact inductionHypothesis isLayout
    | false =>
      rw [if_neg Bool.false_ne_true, separator, if_pos structural]
      exact Scan.ended_cons (Or.inr rfl)

/-- Outside of strings, something set off is written behind a token, or nothing. -/
theorem ended_rendered {kind : Kind} (outside : kind.entersString = false)
    (code : lexeme.isPart = false) (lexemes : List Lexeme) :
    Scan.Ended (rendered width depth (some kind) (lexeme :: lexemes)) := by
  rw [rendered]
  cases isLayout : lexeme.kind.isStructural with
  | true =>
    rw [if_pos rfl, List.nil_append]
    exact ended_rendered_of_layout isLayout lexemes
  | false =>
    rw [if_neg Bool.false_ne_true, separator]
    split
    next => exact Scan.ended_cons (Or.inr rfl)
    next =>
      rw [outside, code]
      exact Scan.ended_cons (Or.inl rfl)

end Lexeme

open Lexeme

/-- Tokens written anew, with a fixed number of spaces for every open level. -/
def rendering (width : Nat) (tokens : List Token) : List Char :=
  rendered width 0 none (tokens.map Token.lexeme)

/-! ## Items -/

namespace LexStream

/-- No item is an error. -/
def Clean (items : List LexItem) : Prop :=
  items.filterMap LexItem.error? = []

def lexemes (items : List LexItem) : List Lexeme :=
  (tokens items).map Token.lexeme

theorem clean_append {left right : List LexItem} :
    Clean (left ++ right) ↔ Clean left ∧ Clean right := by
  rw [Clean, List.filterMap_append, List.append_eq_nil_iff]
  rfl

theorem clean_nil : Clean [] :=
  rfl

theorem clean_map_error {errors : List LexError} (clean : Clean (errors.map .error)) :
    errors = [] := by
  cases errors with
  | nil => rfl
  | cons error errors => exact absurd clean (List.cons_ne_nil _ _)

theorem clean_map_structural (state : LexState) (kinds : List Kind) :
    Clean (kinds.map state.structural) := by
  induction kinds with
  | nil => rfl
  | cons kind kinds inductionHypothesis => exact inductionHypothesis

theorem lexemes_append (left right : List LexItem) :
    lexemes (left ++ right) = lexemes left ++ lexemes right := by
  rw [lexemes, tokens_append, List.map_append]
  rfl

theorem lexemes_map_structural (state : LexState) (kinds : List Kind) :
    lexemes (kinds.map state.structural) = kinds.map Lexeme.layout := by
  rw [lexemes, LexState.tokens_map_structural, List.map_map]
  rfl

/-- The levels that a stream replays to are those after its lexemes. -/
theorem depthOf_of_levelsAfter? {depth after : Nat} {items : List LexItem}
    (replayed : levelsAfter? depth items = some after) : depthOf depth (lexemes items) = after := by
  induction items generalizing depth with
  | nil => exact Option.some.inj replayed
  | cons item items inductionHypothesis =>
    cases item with
    | error error => exact inductionHypothesis replayed
    | token token =>
      obtain ⟨kind, text, span⟩ := token
      rw [levelsAfter?] at replayed
      cases kind with
      | indent => exact inductionHypothesis replayed
      | dedent =>
        split at replayed
        next opens => contradiction
        next =>
          split at replayed
          next =>
            split at replayed
            next => contradiction
            next => exact inductionHypothesis replayed
          next => contradiction
      | _ => exact inductionHypothesis replayed

end LexStream

namespace LexState

variable {width : Nat} {state other after middle line : LexState} {step : LexStep} {kind : Kind}
  {split : Scan.Split} {errors : List LexError} {follow : List Char}

theorem clean_yield (state : LexState) (kind : Kind) (split : Scan.Split) (errors : List LexError) :
    Clean (state.yield kind split errors).1 ↔ errors = [] := by
  refine ⟨clean_map_error, ?_⟩
  rintro rfl
  rfl

theorem lexemes_yield (state : LexState) (kind : Kind) (split : Scan.Split)
    (errors : List LexError) :
    lexemes (state.yield kind split errors).1 = [⟨kind, String.ofList split.text⟩] := by
  rw [lexemes, yield, tokenOf, tokens_token, tokens_map_error]
  rfl

/-! ## Steps without errors -/

/-- What reading one piece of the text comes to if there is no error in it. -/
inductive ReadsCleanly (state : LexState) : LexStep → Prop
  | code {kind : Kind} {split : Scan.Split} {after : LexState} (outside : ¬ InString state.modes)
    (takes : TakesCode state kind split [] after) : ReadsCleanly state (after.yield kind split [])
  | part {kind : Kind} {split : Scan.Split} {after : LexState} (inside : InString state.modes)
    (takes : TakesPart state kind split [] after) : ReadsCleanly state (after.yield kind split [])
  | ends (nothing : state.rest = []) (closed : state.openString? = none) :
    ReadsCleanly state state.finish

theorem Reads.cleanly (reads : Reads state step) (clean : Clean step.1) : ReadsCleanly state step := by
  cases reads with
  | code outside takes =>
    obtain rfl := (clean_yield _ _ _ _).mp clean
    exact .code outside takes
  | part inside takes =>
    obtain rfl := (clean_yield _ _ _ _).mp clean
    exact .part inside takes
  | unexpected _ _ => exact absurd clean (List.cons_ne_nil _ _)
  | ends nothing closed => exact .ends nothing closed
  | fails _ => exact absurd clean (List.cons_ne_nil _ _)

theorem head?_of_takes {input : List Char} (takes : split.Takes input) (more : List Char) :
    (split.text ++ more).head? = input.head? := by
  obtain ⟨c, rest, first⟩ := List.exists_cons_of_ne_nil takes.1
  have whole := takes.2
  rw [Scan.Split.Of, first] at whole
  rw [← whole, first]
  rfl

theorem isPart_of_isPlain {kind : Kind} (plain : kind.IsPlain) (text : String) :
    (⟨kind, text⟩ : Lexeme).isPart = false ∧ kind.entersString = false := by
  have ofString := plain.ofString
  cases kind <;> first | exact ⟨rfl, rfl⟩ | contradiction

/-- A token of code is no part of a string, and only if the inside of a string follows it does it
enter one. -/
theorem TakesCode.enters (takes : TakesCode state kind split errors after)
    (alternating : Alternating state.modes) (text : String) :
    (⟨kind, text⟩ : Lexeme).isPart = false ∧
      (¬ InString after.modes → kind.entersString = false) := by
  cases takes with
  | stringStart _ _ => exact ⟨rfl, fun stays => absurd ⟨_, _, rfl⟩ stays⟩
  | character _ _ _ => exact ⟨rfl, fun _ => rfl⟩
  | wrongCharacter _ _ _ => exact ⟨rfl, fun _ => rfl⟩
  | number _ => exact (isPart_of_isPlain (Kind.isPlain_evaluate _) text).imp_right fun no _ => no
  | word _ found =>
    obtain ⟨split, _, rfl⟩ := Option.map_eq_some_iff.mp found
    exact (isPart_of_isPlain (Kind.isPlain_ofWord _) text).imp_right fun no _ => no
  | @symbol symbol _ _ _ =>
    rcases bracket_modes state symbol.value with ⟨outer, modes, isEnd, same⟩ | ⟨isSymbol, _⟩
    · rw [modes] at alternating
      rw [isEnd, same]
      exact ⟨rfl, fun stays => absurd alternating.inside.2 stays⟩
    · rw [isSymbol]
      exact ⟨rfl, fun _ => rfl⟩

theorem TakesPart.isPart (takes : TakesPart state kind split errors after) (text : String) :
    (⟨kind, text⟩ : Lexeme).isPart = true := by
  cases takes <;> rfl

theorem TakesPart.of_fragment {text : String}
    (takes : TakesPart state (.stringFragment text) split errors after) : after = state := by
  cases takes
  rfl

theorem openString?_ne_none (inside : InString state.modes) : state.openString? ≠ none := by
  obtain ⟨start, outer, modes⟩ := inside
  rw [openString?, modes]
  exact Option.some_ne_none _

theorem clean_finish (closed : state.openString? = none) : Clean state.finish.1 ∧
    lexemes state.finish.1 =
      (List.replicate state.layout.depth Kind.dedent ++ [Kind.endOfInput]).map Lexeme.layout := by
  have items : state.finish.1 =
      (List.replicate state.layout.depth Kind.dedent ++ [Kind.endOfInput]).map state.structural := by
    rw [finish, closed, List.map_append, List.map_replicate]
    rfl
  rw [items]
  exact ⟨clean_map_structural _ _, lexemes_map_structural _ _⟩

theorem closed_of_clean (clean : Clean state.finish.1) : state.openString? = none := by
  cases opened : state.openString? with
  | none => rfl
  | some start =>
    rw [finish, opened] at clean
    exact absurd clean (List.cons_ne_nil _ _)

/-- The last token of a step without errors is known after it. -/
theorem ReadsCleanly.lastOf (reads : ReadsCleanly state step) (last : Option Kind) :
    Lexeme.lastOf last (lexemes step.1) = step.2.lastKind := by
  cases reads with
  | code outside takes => rw [lexemes_yield]; rfl
  | part inside takes => rw [lexemes_yield]; rfl
  | ends nothing closed =>
    rw [(clean_finish closed).2, Lexeme.lastOf, List.map_append, List.foldl_append, finish, closed]
    rfl

/-! ## Reading again -/

/-- What a lexer between two steps is like as long as no error was found: what it is inside of, and
whether any code was taken, is told by its last token and its layout. -/
structure Regular (state : LexState) : Prop where
  fits : state.Fits
  text : ∀ kind, state.lastKind = some kind → kind.isStructural = false
  fresh : state.atLineStart = true →
    state.modes = [] ∧ state.lastKind = none ∧ state.layout = .ofTabWidth state.layout.tabWidth
  begun : state.atLineStart = false → state.layout.started = true

/-- What follows a token is set off from it, but for the inside of a string. Behind a fragment it
starts as before. -/
structure Leads (state : LexState) (follow : List Char) : Prop where
  ended : ∀ kind, state.lastKind = some kind → kind.entersString = false → ¬ InString state.modes →
    Scan.Ended follow
  whole : InString state.modes → state.afterFragment = true → follow.head? = state.rest.head?

/-- A step that yields the tokens of another one, up to their places, and leaves a mirrored state in
front of the given text if there is more to come. -/
structure Repeats (width : Nat) (step : LexStep) (follow : List Char) (again : LexStep) : Prop where
  clean : Clean again.1
  lexemes : lexemes again.1 = lexemes step.1
  finished : again.2.finished = step.2.finished
  mirrors : step.2.finished = false → Mirrors width step.2 again.2
  rest : again.2.rest = follow

theorem repeats_yield (mirrors : Mirrors width after other) (kind : Kind) (split : Scan.Split)
    (follow : List Char) : Repeats width (after.yield kind split []) follow
      (other.yield kind ⟨split.text, follow⟩ []) := by
  refine ⟨rfl, ?_, mirrors.finished, fun _ => mirrors.yield _ _ _ _ _, rfl⟩
  rw [lexemes_yield, lexemes_yield]

/-- At the end of the text both close as many levels. -/
theorem repeats_finish (width : Nat) (closed : state.openString? = none)
    (closedOther : other.openString? = none)
    (depth : other.layout.depth = state.layout.depth) (rest : other.rest = []) :
    Repeats width state.finish [] other.finish := by
  obtain ⟨clean, lexemes⟩ := clean_finish closed
  obtain ⟨cleanOther, lexemesOther⟩ := clean_finish closedOther
  refine ⟨cleanOther, by rw [lexemes, lexemesOther, depth], ?_, fun goesOn => ?_, ?_⟩
  · rw [finished_finish, finished_finish]
  · exact absurd ((finished_finish state).symm.trans goesOn) Bool.noConfusion
  · rw [finish, closedOther]
    exact rest

/-- A token of code is read again wherever its text is written with the same behind it. -/
theorem repeats_code (width : Nat) (alternating : Alternating state.modes) (outside : ¬ InString state.modes)
    (takes : TakesCode state kind split [] after)
    (leads : Leads (after.yield kind split []).2 follow) :
    Scan.Opens (split.text ++ follow) ∧ ∀ other : LexState, Mirrors width state other →
      other.rest = split.text ++ follow →
        Repeats width (after.yield kind split []) follow other.codeToken := by
  have ended (stays : ¬ InString after.modes) : Scan.Ended follow :=
    leads.ended kind rfl ((takes.enters alternating "").2 stays) stays
  have retaken := takes.retaken width outside ended
  refine ⟨retaken.opens, fun other mirrors rest => ?_⟩
  obtain ⟨again, mirrored, same⟩ := retaken.taken other mirrors rest
  rw [same]
  exact repeats_yield mirrored kind split follow

/-- A part of a string is read again. -/
theorem repeats_part (inside : InString state.modes) (takes : TakesPart state kind split [] after)
    (leads : Leads (after.yield kind split []).2 follow) (mirrors : Mirrors width state other)
    (rest : other.rest = split.text ++ follow) :
    Repeats width (after.yield kind split []) follow other.step := by
  have starts : ∀ text, kind = .stringFragment text → follow.head? = split.rest.head? := by
    rintro text rfl
    exact leads.whole (takes.of_fragment ▸ inside) rfl
  obtain ⟨again, mirrored, same⟩ := takes.retaken mirrors inside starts rest
  rw [same]
  exact repeats_yield mirrored kind split follow

/-! ### Inside of a line -/

theorem codeToken_of_nothing (nothing : state.rest = []) : state.codeToken = state.finish := by
  unfold codeToken
  rw [nothing]

/-- Where no text is left outside of strings, the tokens end. -/
theorem step_of_nothing (outside : ¬ InString state.modes) (nothing : state.rest = []) :
    ∃ split : Scan.Split, split.rest = [] ∧ state.step = (state.take split).finish := by
  rw [step_of_code outside]
  cases brackets : state.layout.inBrackets with
  | true =>
    have gap : (Scan.wrapped state.rest).rest = [] := by rw [nothing, Scan.wrapped_nil]; rfl
    rw [code_of_brackets brackets]
    exact ⟨_, gap, codeToken_of_nothing gap⟩
  | false =>
    cases atStart : state.atLineStart with
    | true =>
      have gap : (Scan.blankLines state.rest).rest = [] := by rw [nothing, Scan.blankLines_nil]
      rw [code_of_atLineStart brackets atStart]
      exact ⟨_, gap, lineStart_of_blank gap⟩
    | false =>
      have gap : (Scan.trivia state.rest).rest = [] := by rw [nothing, Scan.trivia_nil]; rfl
      rw [code_of_inLine brackets atStart (by rw [gap]; rfl)]
      exact ⟨_, gap, codeToken_of_nothing gap⟩

/-- In the middle of a line or inside of brackets the next token is read behind a space, or where
the text is. -/
theorem step_of_gap (outside : ¬ InString state.modes)
    (inLine : state.layout.inBrackets = true ∨ state.atLineStart = false) {gap input : List Char}
    (blank : gap = [] ∨ gap = [' ']) (opens : Scan.Opens input) (rest : state.rest = gap ++ input) :
    state.step = (state.take ⟨gap, input⟩).codeToken := by
  have trivia : Scan.trivia state.rest = ⟨gap, input⟩ := by
    rw [rest]
    rcases blank with rfl | rfl
    · exact Scan.trivia_of_opens opens
    · exact Scan.trivia_space opens
  have missing : Scan.lineBreak? (Scan.trivia state.rest).rest = none := by
    rw [trivia]
    exact opens.noBreak
  rw [step_of_code outside]
  cases brackets : state.layout.inBrackets with
  | true =>
    rw [code_of_brackets brackets]
    change (state.take (Scan.wrapped state.rest)).codeToken = _
    rw [Scan.wrapped_of_none missing, trivia]
  | false =>
    have notAtStart : state.atLineStart = false :=
      inLine.resolve_left fun inside => Bool.false_ne_true (brackets.symm.trans inside)
    rw [code_of_inLine brackets notAtStart missing]
    change (state.take (Scan.trivia state.rest)).codeToken = _
    rw [trivia]

/-- Behind text, a space separates a token from it or nothing does. -/
theorem separator_of_text {depth : Nat} {last : Option Kind} (lexeme : Lexeme)
    (text : ∀ kind, last = some kind → kind.isStructural = false) :
    separator width depth last lexeme = [] ∨ separator width depth last lexeme = [' '] := by
  cases last with
  | none => exact Or.inl rfl
  | some kind =>
    rw [separator, text kind rfl, if_neg Bool.false_ne_true]
    split
    next => exact Or.inl rfl
    next => exact Or.inr rfl

theorem separator_of_isPart {depth : Nat} {last : Option Kind} {lexeme : Lexeme}
    (isPart : lexeme.isPart = true) (text : ∀ kind, last = some kind → kind.isStructural = false) :
    separator width depth last lexeme = [] := by
  cases last with
  | none => rfl
  | some kind => rw [separator, text kind rfl, isPart, Bool.or_true, if_neg Bool.false_ne_true, if_pos rfl]

/-- What is written of a single token of text. -/
theorem rendered_yield {depth : Nat} {last : Option Kind} (piece : IsPiece state kind split after) :
    rendered width depth last (lexemes (after.yield kind split errors).1) =
      separator width depth last ⟨kind, String.ofList split.text⟩ ++ split.text := by
  rw [lexemes_yield, rendered_singleton piece.structural, String.toList_ofList]

theorem rendered_finish {depth : Nat} {last : Option Kind} (closed : state.openString? = none) :
    rendered width depth last (lexemes state.finish.1) = [] := by
  rw [(clean_finish closed).2]
  refine rendered_of_structural fun lexeme member => ?_
  obtain ⟨kind, inKinds, rfl⟩ := List.mem_map.mp member
  rcases List.mem_append.mp inKinds with isDedent | isEnd
  · rw [List.eq_of_mem_replicate isDedent]
    rfl
  · rw [List.mem_singleton.mp isEnd]
    rfl

/-- At the end of the tokens nothing is written, and the tokens end again. -/
theorem repeats_ends (alternating : Alternating middle.modes)
    (modes : List.Forall₂ LexMode.Alike middle.modes other.modes)
    (levels : other.layout.levels = Layout.ladder width middle.layout.depth)
    (closed : middle.openString? = none) (nothing : other.rest = []) :
    Repeats width middle.finish [] other.step := by
  rw [modes_eq_nil_of_alternating alternating closed, List.forall₂_nil_left_iff] at modes
  obtain ⟨split, rest, step⟩ := step_of_nothing (modes ▸ not_inString_nil) nothing
  have closedOther : (other.take split).openString? = none := by
    rw [openString?, show (other.take split).modes = [] from modes]
    rfl
  have depth : (other.take split).layout.depth = middle.layout.depth :=
    (congrArg List.length levels).trans (Layout.length_ladder width _)
  rw [step]
  exact repeats_finish width closed closedOther depth rest

/-- In the middle of a line or inside of brackets, a token is read again behind what separates it. -/
theorem repeats_gap (regular : state.Regular) (outside : ¬ InString state.modes)
    (inLine : state.layout.inBrackets = true ∨ state.atLineStart = false) (gap : Scan.Split)
    (reads : ReadsCleanly (state.take gap) step)
    (leads : step.2.finished = false → Leads step.2 follow)
    (ends : step.2.finished = true → follow = []) (running : state.finished = false)
    (mirrors : Mirrors width state other)
    (rest : other.rest =
      rendered width state.layout.depth state.lastKind (lexemes step.1) ++ follow) :
    Repeats width step follow other.step := by
  have alternating : Alternating (state.take gap).modes := regular.fits.alternating
  cases reads with
  | @code kind split after _ takes =>
    have piece := takes.isPiece
    have goesOn : (after.yield kind split []).2.finished = false := piece.finished.trans running
    obtain ⟨opens, again⟩ := repeats_code width alternating outside takes (leads goesOn)
    rw [rendered_yield piece, List.append_assoc] at rest
    have inLineOther : other.layout.inBrackets = true ∨ other.atLineStart = false := by
      rw [Layout.inBrackets, mirrors.brackets, mirrors.atLineStart]
      exact inLine
    rw [step_of_gap (mirrors.outside outside) inLineOther (separator_of_text _ regular.text) opens
      rest]
    exact again _ (mirrors.take _ _) rfl
  | part inside _ => exact absurd inside outside
  | ends nothing closed =>
    obtain rfl := ends (finished_finish _)
    rw [rendered_finish closed] at rest
    exact repeats_ends alternating mirrors.modes mirrors.levels closed rest

theorem repeats_inString (regular : state.Regular) (inside : InString state.modes)
    (reads : ReadsCleanly state step) (leads : step.2.finished = false → Leads step.2 follow)
    (running : state.finished = false) (mirrors : Mirrors width state other)
    (rest : other.rest =
      rendered width state.layout.depth state.lastKind (lexemes step.1) ++ follow) :
    Repeats width step follow other.step := by
  cases reads with
  | code outside _ => exact absurd inside outside
  | @part kind split after _ takes =>
    have piece := takes.isPiece
    have goesOn : (after.yield kind split []).2.finished = false := piece.finished.trans running
    rw [rendered_yield piece, separator_of_isPart (takes.isPart _) regular.text] at rest
    exact repeats_part inside takes (leads goesOn) mirrors rest
  | ends _ closed => exact absurd closed (openString?_ne_none inside)

/-! ### Lines -/

/-- The indentation of a line without errors: what the line does to the levels, and the tokens
that say so. -/
theorem indentation_cleanly (clean : Clean state.indentation.1) :
    ∃ indent lineLayout layout, state.layout.line indent = (.ok lineLayout, layout) ∧
      lexemes state.indentation.1 = (layoutKinds lineLayout).map Lexeme.layout ∧
      state.indentation.2.layout = layout ∧
      state.indentation.2.lastKind = (layoutKinds lineLayout).getLast?.or state.lastKind := by
  have lexemes : lexemes state.indentation.1 = (lineKinds (state.layout.line
      (state.layout.measure (Scan.leading state.rest).text).width).1).map Lexeme.layout := by
    rw [LexStream.lexemes, tokens_indentation, List.map_map]
    rfl
  unfold indentation at clean lexemes ⊢
  dsimp only at clean lexemes ⊢
  rcases laid : state.layout.line (state.layout.measure (Scan.leading state.rest).text).width with
    ⟨_ | lineLayout, layout⟩
  · rw [laid] at clean
    exact absurd (clean_map_error (clean_append.mp clean).2) (List.cons_ne_nil _ _)
  · rw [laid] at lexemes
    exact ⟨_, lineLayout, layout, laid, lexemes, rfl, rfl⟩

theorem structural_of_mem_layoutKinds {lineLayout : LineLayout} (member : kind ∈ layoutKinds lineLayout) :
    kind.isStructural = true := by
  have inLine : kind ∈ lineKinds (.ok lineLayout) := member
  rcases layout_of_mem_lineKinds inLine with rfl | rfl | rfl
  · rfl
  · rfl
  · rfl

/-- A line without tokens of layout is the first one, and not indented. -/
theorem start_of_layoutKinds {layout after : Layout} {indent : Nat} {lineLayout : LineLayout}
    (laid : layout.line indent = (.ok lineLayout, after)) (silent : layoutKinds lineLayout = []) :
    layout.started = false ∧ after.depth = layout.depth := by
  rcases Nat.lt_trichotomy indent layout.top with shallower | same | deeper
  · have fewer := Layout.depth_closed_lt shallower
    rw [Layout.line_of_lt shallower] at laid
    split at laid
    next =>
      obtain rfl := Except.ok.inj (Prod.mk.inj laid).1
      rw [layoutKinds, List.replicate_eq_nil_iff] at silent
      omega
    next => exact absurd (Prod.mk.inj laid).1 (by simp)
  · rw [Layout.line_of_eq same] at laid
    obtain ⟨isLine, rfl⟩ := Prod.mk.inj laid
    obtain rfl := Except.ok.inj isLine
    refine ⟨?_, rfl⟩
    cases started : layout.started with
    | false => rfl
    | true =>
      rw [started] at silent
      contradiction
  · rw [Layout.line_of_gt deeper] at laid
    obtain rfl := Except.ok.inj (Prod.mk.inj laid).1
    contradiction

theorem lastOf_layout (kinds : List Kind) (last : Option Kind) :
    Lexeme.lastOf last (kinds.map Lexeme.layout) = kinds.getLast?.or last := by
  induction kinds generalizing last with
  | nil => rfl
  | cons kind kinds inductionHypothesis =>
    have later := inductionHypothesis (some kind)
    rw [List.getLast?_cons]
    refine later.trans ?_
    cases kinds.getLast? with
    | none => rfl
    | some other => rfl

/-- Behind a line break or at the start of a text a line starts, at its indentation. -/
theorem lineStarts_again (mirrors : Mirrors width state other) (starts : LineStarts state line)
    {lead input : List Char} {indent : Nat} (opens : Scan.Opens input)
    (leads : lead = ['\n'] ∨ lead = [] ∧ state.atLineStart = true)
    (rest : other.rest = lead ++ (List.replicate indent ' ' ++ input)) :
    ∃ again : LexState, LineStarts other again ∧ Mirrors width line again ∧
      again.pastBlank.rest = List.replicate indent ' ' ++ input := by
  cases starts with
  | here atStart =>
    refine ⟨other, .here (mirrors.atLineStart.trans atStart), mirrors, ?_⟩
    rcases leads with rfl | ⟨rfl, _⟩
    · have blank := Scan.blankLines_lineFeed indent opens
      rw [← List.singleton_append, ← rest] at blank
      exact congrArg Scan.Split.rest blank
    · have blank := (Scan.blankLines_line indent opens).2
      rw [← List.nil_append (List.replicate indent ' ' ++ input), ← rest] at blank
      exact (congrArg Scan.Split.rest blank).trans rest
  | @next lineBreak notAtStart found =>
    have isFeed : lead = ['\n'] :=
      leads.resolve_right fun atStart => Bool.false_ne_true (notAtStart.symm.trans atStart.2)
    rw [isFeed, List.singleton_append] at rest
    have isBreak : Scan.lineBreak? (Scan.trivia other.rest).rest =
        some ⟨['\n'], List.replicate indent ' ' ++ input⟩ := by
      rw [rest, Scan.trivia_lineFeed]
      rfl
    refine ⟨_, .next (mirrors.atLineStart.trans notAtStart) isBreak, ?_, ?_⟩
    · exact ⟨mirrors.modes, mirrors.levels, mirrors.brackets, mirrors.started, rfl,
        mirrors.lastKind, mirrors.finished⟩
    · exact congrArg Scan.Split.rest (Scan.blankLines_line indent opens).2

theorem step_of_lineStarts (outside : ¬ InString state.modes)
    (noBrackets : state.layout.inBrackets = false) (starts : LineStarts state line)
    (something : line.pastBlank.rest ≠ []) :
    state.step = (line.pastBlank.indentation.1 ++ line.atCode.codeToken.1,
      line.atCode.codeToken.2) := by
  rw [step_of_code outside]
  cases starts with
  | here atStart =>
    rw [code_of_atLineStart noBrackets atStart, lineStart_of_code something]
    rfl
  | next notAtStart found =>
    rw [code_of_lineBreak noBrackets notAtStart found, lineStart_of_code something]
    rfl

/-- The first token of a line is at its first character. -/
theorem atCode_rest_ne_nil (something : line.pastBlank.rest ≠ []) : line.atCode.rest ≠ [] := by
  have general : ∀ input : List Char, (Scan.blankLines input).rest ≠ [] →
      (Scan.trivia (Scan.leading (Scan.blankLines input).rest).rest).rest ≠ [] := by
    intro input
    fun_induction Scan.blankLines input with
    | case1 input lead gap nothing => exact fun more => absurd rfl more
    | case2 input lead gap something missing => exact fun _ => something
    | case3 input lead gap something lineBreak found inductionHypothesis => exact inductionHypothesis
  exact general line.rest something

theorem started_line (layout : Layout) (width : Nat) : (layout.line width).2.started = true := by
  unfold Layout.line
  dsimp only
  split
  · rfl
  · split
    · rfl
    · split <;> rfl

theorem started_atCode (line : LexState) : line.atCode.layout.started = true :=
  started_line _ _

/-- The indentation of a line is repeated with as many spaces as its depth asks for. -/
theorem indentation_again (positive : 0 < width) (mirrors : Mirrors width line other)
    (clean : Clean line.pastBlank.indentation.1) {input : List Char} (opens : Scan.Opens input)
    (counted : width * line.atCode.layout.depth < Layout.widthCount)
    (rest : other.pastBlank.rest =
      List.replicate (width * line.atCode.layout.depth) ' ' ++ input) :
    Clean other.pastBlank.indentation.1 ∧
      lexemes other.pastBlank.indentation.1 = lexemes line.pastBlank.indentation.1 ∧
      Mirrors width line.atCode other.atCode ∧ other.atCode.rest = input := by
  obtain ⟨indent, lineLayout, layout, laid, same, after, lastKind⟩ := indentation_cleanly clean
  have depth : line.atCode.layout.depth = layout.depth := congrArg Layout.depth after
  have lastCode : line.atCode.lastKind = (layoutKinds lineLayout).getLast?.or line.lastKind := lastKind
  rw [depth] at counted rest
  have laidOther := Layout.line_ladder positive laid mirrors.levels mirrors.started
  have indented := @indentation_of_spaces _ other.pastBlank _ counted opens rest _ _ laidOther
  have gap : Scan.trivia input = .nothing input := Scan.trivia_of_opens opens
  refine ⟨?_, ?_, ?_, ?_⟩
  · rw [indented]
    exact clean_map_structural _ _
  · rw [indented, same]
    exact lexemes_map_structural _ _
  · unfold atCode at depth lastCode ⊢
    rw [indented]
    refine ⟨mirrors.modes, ?_, ?_, ?_, rfl, ?_, mirrors.finished⟩
    · rw [depth]
      rfl
    · exact mirrors.brackets.trans (brackets_atCode line).symm
    · exact (started_atCode line).symm
    · rw [lastCode, ← mirrors.lastKind]
      rfl
  · rw [atCode, indented]
    exact congrArg Scan.Split.rest gap

theorem depthOf_indentation (starts : LineStarts state line) :
    Lexeme.depthOf state.layout.depth (lexemes line.pastBlank.indentation.1) =
      line.atCode.layout.depth := by
  rw [← starts.layout.1]
  exact depthOf_of_levelsAfter? (indentation_shape line.pastBlank).2.1

/-- Before the first token of a line stands a line break with its indentation, but for a first line
that is not indented. -/
theorem separator_of_line (width : Nat) (regular : state.Regular) (starts : LineStarts state line)
    (clean : Clean line.pastBlank.indentation.1) (lexeme : Lexeme) :
    ∃ lead, (lead = ['\n'] ∨ lead = [] ∧ state.atLineStart = true) ∧
      separator width line.atCode.layout.depth
          (Lexeme.lastOf state.lastKind (lexemes line.pastBlank.indentation.1)) lexeme =
        lead ++ List.replicate (width * line.atCode.layout.depth) ' ' := by
  obtain ⟨indent, lineLayout, layout, laid, same, after, _⟩ := indentation_cleanly clean
  have sameLayout : line.pastBlank.layout = state.layout := starts.layout.1
  rw [same, lastOf_layout]
  cases isLast : (layoutKinds lineLayout).getLast? with
  | none =>
    obtain ⟨unstarted, sameDepth⟩ := start_of_layoutKinds laid (List.getLast?_eq_none_iff.mp isLast)
    rw [sameLayout] at unstarted sameDepth
    have atStart : state.atLineStart = true := by
      cases notAtStart : state.atLineStart with
      | true => rfl
      | false => exact absurd (unstarted.symm.trans (regular.begun notAtStart)) Bool.false_ne_true
    obtain ⟨_, noCode, fresh⟩ := regular.fresh atStart
    have noLevels : line.atCode.layout.depth = 0 := by
      rw [fresh] at sameDepth
      exact (congrArg Layout.depth after).trans sameDepth
    refine ⟨[], Or.inr ⟨rfl, atStart⟩, ?_⟩
    rw [noCode, noLevels]
    rfl
  | some kind =>
    refine ⟨['\n'], Or.inl rfl, ?_⟩
    have structural := structural_of_mem_layoutKinds (List.mem_of_getLast? isLast)
    rw [Option.some_or, separator, if_pos structural]
    rfl

/-- What is written of the layout of a line and its first token. -/
theorem rendered_line (width : Nat) (regular : state.Regular) (starts : LineStarts state line)
    (clean : Clean line.pastBlank.indentation.1) (piece : IsPiece line.atCode kind split after) :
    ∃ lead, (lead = ['\n'] ∨ lead = [] ∧ state.atLineStart = true) ∧
      rendered width state.layout.depth state.lastKind
          (lexemes (line.pastBlank.indentation.1 ++ (after.yield kind split []).1)) =
        lead ++ (List.replicate (width * line.atCode.layout.depth) ' ' ++ split.text) := by
  obtain ⟨lead, isLead, separated⟩ := separator_of_line width regular starts clean
    ⟨kind, String.ofList split.text⟩
  obtain ⟨_, lineLayout, _, _, same, _, _⟩ := indentation_cleanly clean
  have structural : ∀ lexeme ∈ lexemes line.pastBlank.indentation.1,
      lexeme.kind.isStructural = true := by
    intro lexeme member
    rw [same] at member
    obtain ⟨other, inKinds, rfl⟩ := List.mem_map.mp member
    exact structural_of_mem_layoutKinds inKinds
  refine ⟨lead, isLead, ?_⟩
  rw [lexemes_append, rendered_append, rendered_of_structural structural, List.nil_append,
    depthOf_indentation starts, rendered_yield piece, separated, List.append_assoc]

/-- A line is read again with its layout and its first token. -/
theorem repeats_line (positive : 0 < width) (regular : state.Regular)
    (outside : ¬ InString state.modes) (noBrackets : state.layout.inBrackets = false)
    (starts : LineStarts state line) (something : line.pastBlank.rest ≠ [])
    (reads : ReadsCleanly line.atCode step) (clean : Clean line.pastBlank.indentation.1)
    (leads : step.2.finished = false → Leads step.2 follow) (running : state.finished = false)
    (mirrors : Mirrors width state other)
    (rest : other.rest = rendered width state.layout.depth state.lastKind
      (lexemes (line.pastBlank.indentation.1 ++ step.1)) ++ follow)
    (bounded : other.rest.length < Layout.widthCount) :
    Repeats width (line.pastBlank.indentation.1 ++ step.1, step.2) follow other.step := by
  have modes : line.atCode.modes = state.modes := starts.modes
  cases reads with
  | @code kind split after outsideLine takes =>
    have piece := takes.isPiece
    have goesOn : (after.yield kind split []).2.finished = false :=
      piece.finished.trans (starts.finished.trans running)
    obtain ⟨opens, again⟩ := repeats_code width (modes ▸ regular.fits.alternating)
      outsideLine takes (leads goesOn)
    obtain ⟨lead, isLead, written⟩ := rendered_line width regular starts clean piece
    rw [written, List.append_assoc, List.append_assoc] at rest
    have counted : width * line.atCode.layout.depth < Layout.widthCount := by
      rw [rest, List.length_append, List.length_append, List.length_replicate] at bounded
      omega
    obtain ⟨next, startsNext, mirrored, nextRest⟩ :=
      lineStarts_again mirrors starts opens isLead rest
    obtain ⟨cleanNext, sameNext, mirroredCode, codeRest⟩ :=
      indentation_again positive mirrored clean opens counted nextRest
    have somethingNext : next.pastBlank.rest ≠ [] := by
      rw [nextRest]
      exact List.append_ne_nil_of_right_ne_nil _ opens.nonempty
    have noBracketsNext : other.layout.inBrackets = false := by
      rw [Layout.inBrackets, mirrors.brackets]
      exact noBrackets
    have code := again _ mirroredCode codeRest
    rw [step_of_lineStarts (mirrors.outside outside) noBracketsNext startsNext somethingNext]
    refine ⟨clean_append.mpr ⟨cleanNext, code.clean⟩, ?_, code.finished, code.mirrors, code.rest⟩
    rw [lexemes_append, lexemes_append, sameNext, code.lexemes]
  | part inside _ => exact absurd (modes ▸ inside) outside
  | ends nothing _ => exact absurd nothing (atCode_rest_ne_nil something)

/-! ### All steps -/

theorem repeats_step (positive : 0 < width) (regular : state.Regular)
    (running : state.finished = false) (clean : Clean state.step.1)
    (leads : state.step.2.finished = false → Leads state.step.2 follow)
    (ends : state.step.2.finished = true → follow = []) (mirrors : Mirrors width state other)
    (rest : other.rest =
      rendered width state.layout.depth state.lastKind (lexemes state.step.1) ++ follow)
    (bounded : other.rest.length < Layout.widthCount) :
    Repeats width state.step follow other.step := by
  have cases := stepped state
  generalize state.step = step at cases clean leads ends rest ⊢
  cases cases with
  | inString inside reads =>
    exact repeats_inString regular inside (reads.cleanly clean) leads running mirrors rest
  | inBrackets outside brackets reads =>
    exact repeats_gap regular outside (Or.inl brackets) _ (reads.cleanly clean) leads ends running
      mirrors rest
  | inLine outside _ notAtStart _ reads =>
    exact repeats_gap regular outside (Or.inr notAtStart) _ (reads.cleanly clean) leads ends running
      mirrors rest
  | @blank line outside _ starts reads =>
    have alternating : Alternating line.pastBlank.modes := starts.modes ▸ regular.fits.alternating
    obtain rfl := ends (finished_finish _)
    have closed := closed_of_clean clean
    rw [rendered_finish closed] at rest
    refine repeats_ends alternating ?_ ?_ closed rest
    · exact starts.modes.symm ▸ mirrors.modes
    · exact mirrors.levels.trans (congrArg (fun layout => Layout.ladder width layout.depth)
        starts.layout.1.symm)
  | line outside noBrackets starts something reads =>
    obtain ⟨layoutClean, codeClean⟩ := clean_append.mp clean
    exact repeats_line positive regular outside noBrackets starts something
      (reads.cleanly codeClean) layoutClean leads running mirrors rest bounded

theorem regular_yield {faults : List LexError}
    (fits : (after.yield kind split faults).2.Fits) (piece : IsPiece state kind split after)
    (notAtStart : state.atLineStart = false) (started : state.layout.started = true) :
    (after.yield kind split faults).2.Regular := by
  have frame := piece.frame
  refine ⟨fits, fun other same => ?_, fun atStart => ?_, fun _ => ?_⟩
  · obtain rfl := Option.some.inj same
    exact piece.structural
  · have same : after.atLineStart = state.atLineStart := by rw [frame]
    exact absurd ((same.trans notAtStart).symm.trans atStart) Bool.false_ne_true
  · have same : after.layout.started = state.layout.started := by rw [frame]
    exact same.trans started

/-- A step without errors leaves a regular state behind, if there is more to come. -/
theorem regular_step (regular : state.Regular) (running : state.finished = false)
    (clean : Clean state.step.1) (goesOn : state.step.2.finished = false) :
    state.step.2.Regular := by
  have cases := stepped state
  have fits := (fitsInto_stepped regular.fits running cases).fits
  generalize state.step = step at cases fits clean goesOn ⊢
  have behind {middle : LexState} {step : LexStep} (reads : ReadsCleanly middle step)
      (fits : step.2.Fits) (goesOn : step.2.finished = false)
      (notAtStart : middle.atLineStart = false) (started : middle.layout.started = true) :
      step.2.Regular := by
    cases reads with
    | code _ takes => exact regular_yield fits takes.isPiece notAtStart started
    | part _ takes => exact regular_yield fits takes.isPiece notAtStart started
    | ends _ _ => exact absurd ((finished_finish middle).symm.trans goesOn) Bool.noConfusion
  have begun (inside : InString state.modes ∨ state.layout.inBrackets = true) :
      state.atLineStart = false := by
    cases atStart : state.atLineStart with
    | false => rfl
    | true =>
      obtain ⟨modes, _, layout⟩ := regular.fresh atStart
      rw [modes, layout] at inside
      rcases inside with inString | brackets
      · exact absurd inString not_inString_nil
      · contradiction
  cases cases with
  | inString inside reads =>
    have notAtStart := begun (Or.inl inside)
    exact behind (reads.cleanly clean) fits goesOn notAtStart (regular.begun notAtStart)
  | inBrackets _ brackets reads =>
    have notAtStart := begun (Or.inr brackets)
    exact behind (reads.cleanly clean) fits goesOn notAtStart (regular.begun notAtStart)
  | inLine _ _ notAtStart _ reads =>
    exact behind (reads.cleanly clean) fits goesOn notAtStart (regular.begun notAtStart)
  | blank _ _ _ _ => exact absurd ((finished_finish _).symm.trans goesOn) Bool.noConfusion
  | line _ _ _ _ reads =>
    have later := behind (reads.cleanly (clean_append.mp clean).2) fits goesOn rfl (started_atCode _)
    exact later

/-- Outside of strings a step yields no parts of strings. -/
theorem isPart_of_outside (alternating : Alternating state.modes) (outside : ¬ InString state.modes)
    (clean : Clean state.step.1) : ∀ lexeme ∈ lexemes state.step.1, lexeme.isPart = false := by
  have cases := stepped state
  generalize state.step = step at cases clean ⊢
  have layout {kinds : List Kind} (structural : ∀ kind ∈ kinds, kind.isStructural = true) :
      ∀ lexeme ∈ kinds.map Lexeme.layout, lexeme.isPart = false := by
    intro lexeme member
    obtain ⟨kind, inKinds, rfl⟩ := List.mem_map.mp member
    have isLayout := structural kind inKinds
    cases kind <;> first | rfl | contradiction
  have behind {middle : LexState} {step : LexStep} (reads : ReadsCleanly middle step)
      (same : middle.modes = state.modes) : ∀ lexeme ∈ lexemes step.1, lexeme.isPart = false := by
    cases reads with
    | code _ takes =>
      rw [lexemes_yield]
      intro lexeme member
      rw [List.mem_singleton.mp member]
      exact (takes.enters (same ▸ alternating) _).1
    | part inside _ => exact absurd (same ▸ inside) outside
    | ends _ closed =>
      rw [(clean_finish closed).2]
      exact layout fun kind => isStructural_of_mem_ending
  cases cases with
  | inString inside _ => exact absurd inside outside
  | inBrackets _ _ reads => exact behind (reads.cleanly clean) rfl
  | inLine _ _ _ _ reads => exact behind (reads.cleanly clean) rfl
  | blank _ _ starts reads => exact behind (reads.cleanly clean) starts.modes
  | line _ _ starts _ reads =>
    obtain ⟨layoutClean, codeClean⟩ := clean_append.mp clean
    obtain ⟨_, lineLayout, _, _, same, _, _⟩ := indentation_cleanly layoutClean
    intro lexeme member
    rw [lexemes_append, same] at member
    rcases List.mem_append.mp member with inLayout | inCode
    · exact layout (fun _ => structural_of_mem_layoutKinds) lexeme inLayout
    · exact behind (reads.cleanly codeClean) starts.modes lexeme inCode

/-- Some lexeme is yielded by every step without errors. -/
theorem lexemes_step_ne_nil (running : state.finished = false) (clean : Clean state.step.1) :
    lexemes state.step.1 ≠ [] := by
  have nonempty := (stepShape_step running).ne_nil
  cases items : state.step.1 with
  | nil => exact absurd items nonempty
  | cons item others =>
    rw [items] at clean
    cases item with
    | token token => exact List.cons_ne_nil _ _
    | error error => exact absurd clean (List.cons_ne_nil _ _)

/-- What is written of the tokens to come is set off from the last one, and behind a fragment it
starts as the text does. -/
theorem leads_step (regular : state.Regular) (running : state.finished = false)
    (clean : Clean state.step.1) (more : List Lexeme) :
    Leads state
      (rendered width state.layout.depth state.lastKind (lexemes state.step.1 ++ more)) := by
  refine ⟨fun kind isLast noString outside => ?_, fun inside isFragment => ?_⟩
  · obtain ⟨first, others, found⟩ := List.exists_cons_of_ne_nil (lexemes_step_ne_nil running clean)
    have code := isPart_of_outside regular.fits.alternating outside clean first
      (found ▸ List.mem_cons_self)
    rw [isLast, found, List.cons_append]
    exact ended_rendered noString code _
  · have cases := stepped state
    generalize state.step = step at cases clean ⊢
    cases cases with
    | inString _ reads =>
      rw [rendered_append]
      cases reads.cleanly clean with
      | code outside _ => exact absurd inside outside
      | part _ takes =>
        rw [rendered_yield takes.isPiece, separator_of_isPart (takes.isPart _) regular.text]
        exact head?_of_takes takes.isPiece.takes _
      | ends _ closed => exact absurd closed (openString?_ne_none inside)
    | inBrackets outside => exact absurd inside outside
    | inLine outside => exact absurd inside outside
    | blank outside => exact absurd inside outside
    | line outside => exact absurd inside outside

/-- What is written of a text never starts with a byte order mark. -/
theorem noMark_step (width : Nat) (regular : state.Regular) (atStart : state.atLineStart = true)
    (clean : Clean state.step.1) :
    state.step.2.finished = true ∧
        rendered width state.layout.depth state.lastKind (lexemes state.step.1) = [] ∨
      ∃ c rest, rendered width state.layout.depth state.lastKind (lexemes state.step.1) = c :: rest ∧
        c ≠ '\ufeff' := by
  obtain ⟨modes, _, layout⟩ := regular.fresh atStart
  have cases := stepped state
  generalize state.step = step at cases clean ⊢
  cases cases with
  | inString inside _ => exact absurd (modes ▸ inside) not_inString_nil
  | inBrackets _ brackets _ =>
    rw [layout] at brackets
    contradiction
  | inLine _ _ notAtStart _ _ => exact absurd (notAtStart.symm.trans atStart) Bool.false_ne_true
  | blank _ _ _ _ => exact Or.inl ⟨finished_finish _, rendered_finish (closed_of_clean clean)⟩
  | @line line step outside _ starts something reads =>
    obtain ⟨layoutClean, codeClean⟩ := clean_append.mp clean
    refine Or.inr ?_
    cases reads.cleanly codeClean with
    | @code kind split after outsideLine takes =>
      obtain ⟨lead, isLead, written⟩ := rendered_line width regular starts layoutClean
        takes.isPiece
      have opens := (takes.retaken width outsideLine fun _ => Scan.ended_nil).opens
      rw [List.append_nil] at opens
      obtain ⟨c, rest, text⟩ := List.exists_cons_of_ne_nil opens.nonempty
      have noMark : c ≠ '\ufeff' := by
        rintro rfl
        exact opens.noMark (text ▸ rfl)
      rw [written]
      rcases isLead with rfl | ⟨rfl, _⟩
      · exact ⟨'\n', _, rfl, by decide⟩
      · cases width * line.atCode.layout.depth with
        | zero => exact ⟨c, rest, text, noMark⟩
        | succ count => exact ⟨' ', _, rfl, by decide⟩
    | part inside _ => exact absurd (starts.modes ▸ inside) outside
    | ends nothing _ => exact absurd nothing (atCode_rest_ne_nil something)

/-- The last token of a step is known after it. -/
theorem lastOf_step (clean : Clean state.step.1) :
    Lexeme.lastOf state.lastKind (lexemes state.step.1) = state.step.2.lastKind := by
  have cases := stepped state
  generalize state.step = step at cases clean ⊢
  cases cases with
  | inString _ reads => exact (reads.cleanly clean).lastOf _
  | inBrackets _ _ reads => exact (reads.cleanly clean).lastOf _
  | inLine _ _ _ _ reads => exact (reads.cleanly clean).lastOf _
  | blank _ _ _ reads => exact (reads.cleanly clean).lastOf _
  | line _ _ _ _ reads =>
    rw [lexemes_append, Lexeme.lastOf, List.foldl_append]
    exact (reads.cleanly (clean_append.mp clean).2).lastOf _

/-- What is written of a step, and of the tokens to come after it. -/
theorem rendered_step (width : Nat) (running : state.finished = false) (clean : Clean state.step.1)
    (more : List Lexeme) :
    rendered width state.layout.depth state.lastKind (lexemes state.step.1 ++ more) =
      rendered width state.layout.depth state.lastKind (lexemes state.step.1) ++
        rendered width state.step.2.layout.depth state.step.2.lastKind more := by
  rw [rendered_append, lastOf_step clean, depthOf_of_levelsAfter? (stepShape_step running).levels]

/-! ## Texts -/

/-- Of a regular state with some items to come that hold no error: a mirrored state in front of
what is written of them yields the same tokens. -/
structure Reproduced (width : Nat) (state : LexState) (items : List LexItem) : Prop where
  leads : Leads state (rendered width state.layout.depth state.lastKind (lexemes items))
  again : ∀ other : LexState, Mirrors width state other →
    other.rest = rendered width state.layout.depth state.lastKind (lexemes items) →
    other.rest.length < Layout.widthCount →
      Clean (other.stream false) ∧ lexemes (other.stream false) = lexemes items

theorem reproduced_stream (positive : 0 < width) (state : LexState) (regular : state.Regular)
    (running : state.finished = false) (clean : Clean (state.stream false)) :
    Reproduced width state (state.stream false) := by
  have general := stream_induction false
    (motive := fun state items => (state.finished = true → items = []) ∧
      (state.Regular → state.finished = false → Clean items → Reproduced width state items))
    (fun state ended => ⟨fun _ => rfl, fun _ running =>
      absurd (running.symm.trans ended) Bool.false_ne_true⟩) ?_ state
  · exact general.2 regular running clean
  · intro state items running _ later
    refine ⟨fun ended => absurd (running.symm.trans ended) Bool.false_ne_true, ?_⟩
    intro regular _ clean
    change Clean (state.step.1 ++ items) at clean
    change Reproduced width state (state.step.1 ++ items)
    obtain ⟨stepClean, itemsClean⟩ := clean_append.mp clean
    have ends (ended : state.step.2.finished = true) : items = [] := later.1 ended
    have goesOn (more : state.step.2.finished = false) : Reproduced width state.step.2 items :=
      later.2 (regular_step regular running stepClean more) more itemsClean
    refine ⟨?_, fun other mirrors rest bounded => ?_⟩
    · rw [lexemes_append]
      exact leads_step regular running stepClean _
    · rw [lexemes_append, rendered_step width running stepClean] at rest
      have repeats := repeats_step positive regular running stepClean
        (fun more => (goesOn more).leads)
        (fun ended => by rw [ends ended]; rfl) mirrors rest bounded
      rw [stream_of_running false (mirrors.finished.trans running)]
      change Clean (other.step.1 ++ other.step.2.stream false) ∧
        lexemes (other.step.1 ++ other.step.2.stream false) = _
      rw [clean_append, lexemes_append, lexemes_append, repeats.lexemes]
      cases ended : state.step.2.finished with
      | true =>
        rw [stream_of_finished false (repeats.finished.trans ended), ends ended]
        exact ⟨⟨repeats.clean, clean_nil⟩, rfl⟩
      | false =>
        have shorter : other.step.2.rest.length < Layout.widthCount := by
          rw [rest, List.length_append] at bounded
          rw [repeats.rest]
          omega
        obtain ⟨laterClean, same⟩ := (goesOn ended).again _ (repeats.mirrors ended) repeats.rest shorter
        exact ⟨⟨repeats.clean, laterClean⟩, by rw [same]⟩

theorem regular_ofSource (tabWidth : Nat) (source : List Char) : (ofSource tabWidth source).Regular := by
  unfold ofSource
  exact ⟨⟨.code, fun _ inside => absurd inside not_inString_nil⟩, fun _ same => by simp at same,
    fun _ => ⟨rfl, rfl, rfl⟩, fun notAtStart => absurd notAtStart.symm Bool.false_ne_true⟩

/-- What is written of the tokens of a text starts with no byte order mark. -/
theorem noMark_ofSource (tabWidth : Nat) (source : List Char)
    (clean : Clean ((ofSource tabWidth source).stream false)) :
    (rendered width 0 none (lexemes ((ofSource tabWidth source).stream false))).head? ≠
      some '\ufeff' := by
  have regular := regular_ofSource tabWidth source
  have split := @stream_of_running false (ofSource tabWidth source) rfl
  change _ = (ofSource tabWidth source).step.1 ++ (ofSource tabWidth source).step.2.stream false at split
  rw [split] at clean ⊢
  obtain ⟨stepClean, _⟩ := clean_append.mp clean
  have written := @rendered_step (ofSource tabWidth source) width rfl stepClean
    (lexemes ((ofSource tabWidth source).step.2.stream false))
  change rendered width 0 none _ = _ at written
  rw [lexemes_append, written]
  rcases noMark_step width regular rfl stepClean with ⟨ended, nothing⟩ | ⟨c, rest, some, noMark⟩
  · rw [nothing, stream_of_finished false ended]
    exact (Option.some_ne_none _).symm
  · rw [some]
    exact fun isMark => noMark (Option.some.inj isMark)

end LexState

theorem clean_iff_diagnostics (settings : Settings) (source : List Char) :
    (tokenize settings false source).diagnostics = [] ↔
      Clean ((LexState.ofSource settings.tabWidth source).stream false) := by
  have perm : (tokenize settings false source).diagnostics.Perm
      ((((LexState.ofSource settings.tabWidth source).stream false).filterMap
        LexItem.error?).map LexError.toDiagnostic) := Diagnostic.sorted_perm _
  rw [Clean]
  constructor
  · intro none
    rw [none] at perm
    exact List.map_eq_nil_iff.mp perm.nil_eq.symm
  · intro clean
    rw [clean] at perm
    exact perm.eq_nil

/-- The tokens of a text that is split without errors are read back, kind by kind and text by text,
from what is written of them with a fixed number of spaces for every open level. As everywhere, a
text has fewer characters than a width can count. -/
theorem tokenize_rendering (settings again : Settings) (source : List Char) {width : Nat}
    (positive : 0 < width) (clean : (tokenize settings false source).diagnostics = [])
    (counted :
      (rendering width (tokenize settings false source).tokens).length < Layout.widthCount) :
    (tokenize again false (rendering width (tokenize settings false source).tokens)).diagnostics =
        [] ∧
      (tokenize again false
          (rendering width (tokenize settings false source).tokens)).tokens.map Token.lexeme =
        (tokenize settings false source).tokens.map Token.lexeme := by
  have clean := (clean_iff_diagnostics settings source).mp clean
  have noMark : (rendering width (tokenize settings false source).tokens).head? ≠ some '\ufeff' :=
    LexState.noMark_ofSource settings.tabWidth source clean
  have reproduced := LexState.reproduced_stream positive _
    (LexState.regular_ofSource settings.tabWidth source) rfl clean
  have start := LexState.ofSource_of_noMark noMark again.tabWidth
  have mirrors : LexState.Mirrors width (.ofSource settings.tabWidth source)
      (.ofSource again.tabWidth (rendering width (tokenize settings false source).tokens)) := by
    rw [start]
    exact ⟨.nil, rfl, rfl, rfl, rfl, rfl, rfl⟩
  obtain ⟨cleanAgain, same⟩ := reproduced.again _ mirrors (by rw [start]; rfl) (by rw [start]; exact counted)
  exact ⟨(clean_iff_diagnostics again _).mpr cleanAgain, same⟩

/-- Two lines, of which the second is indented with a tab and holds an interpolation. -/
theorem tokenize_rendering_lines :
    let source := "a  ( -1)\n\t\"x\x7b  y\x7d\"  // end\n".toList
    let tokenized := tokenize {} false source
    tokenized.diagnostics = [] ∧
      rendering 2 tokenized.tokens = "a ( -1 )\n  \"x\x7b y \x7d\"".toList ∧
      (tokenize {} false (rendering 2 tokenized.tokens)).diagnostics = [] ∧
      (tokenize {} false (rendering 2 tokenized.tokens)).tokens.map Token.lexeme =
        tokenized.tokens.map Token.lexeme := by
  have items : (LexState.ofSource 8 "a  ( -1)\n\t\"x\x7b  y\x7d\"  // end\n".toList).stream false =
      (Lexer.ofSource 8 "a  ( -1)\n\t\"x\x7b  y\x7d\"  // end\n".toList).answers
        (List.replicate 13 false) :=
    Lexer.items_eq_answers (by decide +kernel)
  have clean : (tokenize {} false "a  ( -1)\n\t\"x\x7b  y\x7d\"  // end\n".toList).diagnostics = [] := by
    rw [clean_iff_diagnostics, show ({} : Settings).tabWidth = 8 from rfl, items]
    unfold Clean
    decide +kernel
  have written : rendering 2 (tokenize {} false "a  ( -1)\n\t\"x\x7b  y\x7d\"  // end\n".toList).tokens =
      "a ( -1 )\n  \"x\x7b y \x7d\"".toList := by
    change rendering 2 (tokens ((LexState.ofSource 8 _).stream false)) = _
    rw [items]
    decide +kernel
  refine ⟨clean, written, tokenize_rendering {} {} _ (by decide) clean ?_⟩
  rw [written]
  decide +kernel

end Offside
