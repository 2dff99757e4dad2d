import Offside.Proofs.Lexer.Tiling

/-!
Signs and points in front of digits. Behind a token that can be the last of an operand none of them
belongs to a number: it is a token of its own, which is an operator. All that a lexer has to know of
the text before is the kind of the last token, whatever was passed over or found wrong in between.
-/

namespace Offside

open LexStream LexMode

/-- The operators that a number could start with, if a digit is next. -/
def Symbol.signs : List Symbol :=
  [.plus, .minus, .dot]

theorem Symbol.cases_of_mem_signs {sign : Symbol} (isSign : sign ∈ signs) :
    sign = .plus ∨ sign = .minus ∨ sign = .dot := by
  rwa [signs, List.mem_cons, List.mem_cons, List.mem_singleton] at isSign

namespace Scan

variable {sign : Symbol} {digit : Char}

/-- Behind an operand no number starts with a sign or a point. -/
theorem numeral?_sign (isSign : sign ∈ Symbol.signs) (follow : List Char) :
    numeral? false (sign.characters ++ follow) = none := by
  rcases Symbol.cases_of_mem_signs isSign with rfl | rfl | rfl
  · rfl
  · rfl
  · rfl

theorem word?_sign (isSign : sign ∈ Symbol.signs) (follow : List Char) :
    word? (sign.characters ++ follow) = none := by
  rcases Symbol.cases_of_mem_signs isSign with rfl | rfl | rfl
  · rfl
  · rfl
  · rfl

/-- In front of a digit a sign or a point is a symbol, and not the start of a longer one. -/
theorem symbol?_sign (isSign : sign ∈ Symbol.signs) (isDigit : Text.isDigit digit = true)
    (follow : List Char) :
    symbol? (sign.characters ++ digit :: follow) =
      some ⟨⟨sign.characters, digit :: follow⟩, sign⟩ := by
  have apart (c : Char) (noDigit : Text.isDigit c = false) : c ≠ digit := by
    rintro rfl
    exact absurd (noDigit.symm.trans isDigit) Bool.false_ne_true
  have noPlus := apart '+' (by decide)
  have noMinus := apart '-' (by decide)
  have noPoint := apart '.' (by decide)
  have noAssign := apart '=' (by decide)
  have noArrow := apart '>' (by decide)
  rcases Symbol.cases_of_mem_signs isSign with rfl | rfl | rfl
  · simp [symbol?, Symbol.all, Symbol.characters, strip?, noPlus, noAssign]
  · simp [symbol?, Symbol.all, Symbol.characters, strip?, noMinus, noAssign, noArrow]
  · simp [symbol?, Symbol.all, Symbol.characters, strip?, noPoint]

end Scan

/-! ## Tokens -/

/-- There is one text behind a place. -/
theorem Place.Leads.rest_unique {origin : Place} {position : Position} {rest rest' : List Char}
    (leads : origin.Leads ⟨position, rest⟩) (leads' : origin.Leads ⟨position, rest'⟩) :
    rest = rest' := by
  obtain ⟨text, split, moved⟩ := leads
  obtain ⟨text', split', moved'⟩ := leads'
  dsimp only at split moved split' moved'
  have nothing {before more : List Char}
      (same : (origin.position.advance before).advance more = origin.position.advance before) :
      more = [] := by
    by_contra nonempty
    have further := Position.lt_advance (origin.position.advance before) nonempty
    rw [same] at further
    exact further (Position.le_refl _)
  rcases List.append_eq_append_iff.mp (split.symm.trans split') with
    ⟨more, isText, isRest⟩ | ⟨more, isText, isRest⟩
  · rw [isText, Position.advance_append, moved] at moved'
    rw [nothing moved'.symm, List.nil_append] at isRest
    exact isRest
  · rw [isText, Position.advance_append, moved'] at moved
    rw [nothing moved.symm, List.nil_append] at isRest
    exact isRest.symm

/-- If the token starts with a sign or a point that a digit is next to, it is that sign or point
alone. Tokens of layout start with nothing, wherever they stand. -/
def Token.KeepsSign (origin : Place) (token : Token) : Prop :=
  ∀ sign ∈ Symbol.signs, ∀ digit follow, token.kind.isStructural = false →
    Text.isDigit digit = true →
    origin.Leads ⟨token.span.first, sign.characters ++ digit :: follow⟩ →
    token.kind = .symbol sign ∧ token.text = sign.spelling

theorem Token.keepsSign_structural (origin : Place) {kind : Kind} (span : Span)
    (structural : kind.isStructural = true) : (Token.structural kind span).KeepsSign origin :=
  fun _ _ _ _ noLayout => absurd (structural.symm.trans noLayout) Bool.noConfusion

/-- Every token behind one that can be the last of an operand keeps its sign, where the first one
stands behind a token of the given kind. -/
def KeepsSigns (origin : Place) : Option Kind → List Token → Prop
  | _, [] => True
  | last, token :: tokens =>
    (last.any Kind.endsOperand = true → token.KeepsSign origin) ∧
      KeepsSigns origin (some token.kind) tokens

namespace KeepsSigns

variable {origin : Place} {last : Option Kind} {left right : List Token}

theorem append (keepsLeft : KeepsSigns origin last left)
    (keepsRight : KeepsSigns origin ((left.map Token.kind).getLast?.or last) right) :
    KeepsSigns origin last (left ++ right) := by
  induction left generalizing last with
  | nil => exact keepsRight
  | cons token left inductionHypothesis =>
    refine ⟨keepsLeft.1, inductionHypothesis keepsLeft.2 ?_⟩
    rw [List.map_cons, List.getLast?_cons] at keepsRight
    cases found : (left.map Token.kind).getLast? with
    | none =>
      rw [found] at keepsRight
      exact keepsRight
    | some kind =>
      rw [found] at keepsRight
      exact keepsRight

theorem of_all (all : ∀ token ∈ left, token.KeepsSign origin) : KeepsSigns origin last left := by
  induction left generalizing last with
  | nil => trivial
  | cons token left inductionHypothesis =>
    obtain ⟨first, others⟩ := List.forall_mem_cons.mp all
    exact ⟨fun _ => first, inductionHypothesis others⟩

/-- Of two tokens next to each other the second keeps its sign behind the first. -/
theorem of_adjacent {first second : Token} {before after : List Token}
    (keeps : KeepsSigns origin last (before ++ first :: second :: after))
    (ends : first.kind.endsOperand = true) : second.KeepsSign origin := by
  induction before generalizing last with
  | nil => exact keeps.2.1 ends
  | cons token before inductionHypothesis => exact inductionHypothesis keeps.2

end KeepsSigns

namespace LexState

variable {origin : Place} {state middle after line : LexState} {step : LexStep} {kind : Kind}
  {split : Scan.Split} {errors : List LexError} {last : Option Kind}

theorem TakesCode.keepsSign (located : Located origin state) (noOperand : state.atOperand = false)
    (takes : TakesCode state kind split errors after) (text : Position) :
    (⟨kind, String.ofList split.text, ⟨state.position, text⟩⟩ : Token).KeepsSign origin := by
  intro sign isSign digit follow _ isDigit leads
  have rest : state.rest = sign.characters ++ digit :: follow := located.leads.rest_unique leads
  have starts (c : Char) (others : List Char) (same : state.rest = c :: others) :
      c ∈ ['+', '-', '.'] := by
    rw [rest] at same
    rcases Symbol.cases_of_mem_signs isSign with rfl | rfl | rfl
    · exact List.head_eq_of_cons_eq same ▸ by decide
    · exact List.head_eq_of_cons_eq same ▸ by decide
    · exact List.head_eq_of_cons_eq same ▸ by decide
  cases takes with
  | stringStart splitOf spelled =>
    have splitOf : split.text ++ split.rest = state.rest := splitOf
    rcases spelled with isText | isText
    · rw [isText] at splitOf
      exact absurd (starts _ _ splitOf.symm) (by decide)
    · rw [isText] at splitOf
      exact absurd (starts _ _ splitOf.symm) (by decide)
  | character found _ _ => exact absurd (starts _ _ found) (by decide)
  | wrongCharacter _ found _ => exact absurd (starts _ _ found) (by decide)
  | number found =>
    rw [noOperand, rest, Scan.numeral?_sign isSign] at found
    exact absurd found.symm (Option.some_ne_none _)
  | word _ found =>
    rw [rest, Scan.word?_sign isSign] at found
    exact absurd found.symm (Option.some_ne_none _)
  | symbol _ _ found =>
    rw [rest, Scan.symbol?_sign isSign isDigit] at found
    obtain rfl := Option.some.inj found
    refine ⟨?_, rfl⟩
    rcases Symbol.cases_of_mem_signs isSign with rfl | rfl | rfl
    · rfl
    · rfl
    · rfl

/-! ## Steps -/

/-- Inside of a string the last token is none that an operand ends with. -/
def EntersString (state : LexState) : Prop :=
  InString state.modes → state.lastKind.any Kind.endsOperand = false

theorem TakesCode.entersString (outside : ¬ InString state.modes)
    (takes : TakesCode state kind split errors after) (inside : InString after.modes) :
    kind.endsOperand = false := by
  cases takes with
  | stringStart => rfl
  | symbol =>
    rcases bracket_modes state _ with
      ⟨outer, _, isEnd, _⟩ | ⟨_, same | ⟨_, more, outer, _, counted⟩⟩
    · exact isEnd ▸ rfl
    · exact absurd (same ▸ inside) outside
    · exact absurd (counted ▸ inside) (not_inString_interpolation more outer)
  | _ => exact absurd inside outside

theorem TakesPart.entersString (alternating : Alternating state.modes)
    (inside : InString state.modes) (takes : TakesPart state kind split errors after)
    (still : InString after.modes) : kind.endsOperand = false := by
  cases takes with
  | stringEnd =>
    obtain ⟨start, outer, modes⟩ := inside
    have still : InString state.modes.tail := still
    rw [modes] at alternating still
    exact absurd still alternating.outside.2
  | interpolationStart => rfl
  | fragment => rfl

/-- What a step does about signs behind a token of the given kind: its tokens keep them, and the
last one is known for the next step. -/
structure SignStep (origin : Place) (last : Option Kind) (step : LexStep) : Prop where
  keeps : KeepsSigns origin last (tokens step.1)
  last : (kinds step.1).getLast?.or last = step.2.lastKind
  entersString : EntersString step.2

theorem signStep_yield
    (keeps : last.any Kind.endsOperand = true →
      (⟨kind, String.ofList split.text, after.spanOf split⟩ : Token).KeepsSign origin)
    (entersString : InString after.modes → kind.endsOperand = false) :
    SignStep origin last (after.yield kind split errors) := by
  refine ⟨?_, ?_, entersString⟩
  · rw [yield, tokenOf, tokens_token, tokens_map_error]
    exact ⟨keeps, trivial⟩
  · rw [kinds_yield]
    rfl

theorem signStep_finish (closed : state.openString? = none) :
    SignStep origin last state.finish := by
  have atEnd : state.finish.2.lastKind = some .endOfInput := by
    rw [finish, closed]
  refine ⟨.of_all fun token member => ?_, ?_, fun _ => ?_⟩
  · rw [finish_of_closed closed, tokens_map_structural] at member
    obtain ⟨kind, inKinds, rfl⟩ := List.mem_map.mp member
    refine Token.keepsSign_structural origin _ ?_
    rcases List.mem_append.mp inKinds with isDedent | isEnd
    · exact List.eq_of_mem_replicate isDedent ▸ rfl
    · exact List.mem_singleton.mp isEnd ▸ rfl
  · rw [kinds_finish_of_closed closed, List.getLast?_concat, atEnd]
    rfl
  · rw [atEnd]
    rfl

theorem signStep_reads (located : Located origin state) (alternating : Alternating state.modes)
    (entersString : EntersString state) (reads : Reads state step) :
    SignStep origin state.lastKind step := by
  cases reads with
  | @code kind split errors after outside takes =>
    refine signStep_yield (fun ends => ?_) (takes.entersString outside)
    have noOperand : state.atOperand = false := by rw [atOperand, ends, Bool.not_true]
    have same : after.position = state.position := by rw [takes.isPiece.frame]
    have keeps := takes.keepsSign located noOperand
    rw [spanOf, same]
    exact keeps _
  | part inside takes =>
    refine signStep_yield (fun ends => ?_) (takes.entersString alternating inside)
    exact absurd ((entersString inside).symm.trans ends) Bool.false_ne_true
  | unexpected outside _ => exact ⟨trivial, rfl, fun inside => absurd inside outside⟩
  | ends _ closed => exact signStep_finish closed
  | fails fails =>
    refine ⟨trivial, ?_, fun inside => ?_⟩
    · cases fails <;> rfl
    · cases fails <;> exact entersString inside

/-- The layout of a line is told by its last token, if it has one. -/
theorem lastKind_indentation (state : LexState) :
    (kinds state.indentation.1).getLast?.or state.lastKind = state.indentation.2.lastKind := by
  rw [kinds, tokens_indentation, List.map_map]
  change (List.map (fun kind => kind) _).getLast?.or _ = _
  rw [List.map_id']
  rfl

theorem keepsSigns_indentation (state : LexState) (last : Option Kind) :
    KeepsSigns origin last (tokens state.indentation.1) := by
  refine .of_all fun token member => ?_
  rw [tokens_indentation] at member
  obtain ⟨kind, inKinds, rfl⟩ := List.mem_map.mp member
  refine Token.keepsSign_structural origin _ ?_
  rcases layout_of_mem_lineKinds inKinds with rfl | rfl | rfl
  · rfl
  · rfl
  · rfl

theorem signStep_stepped (located : Located origin state) (alternating : Alternating state.modes)
    (entersString : EntersString state) (stepped : Stepped state step) :
    SignStep origin state.lastKind step := by
  cases stepped with
  | inString _ reads => exact signStep_reads located alternating entersString reads
  | inBrackets outside _ reads =>
    have read := signStep_reads (located.take (Scan.of_wrapped state.rest)) alternating
      (fun inside => absurd inside outside) reads
    exact read
  | inLine outside _ _ _ reads =>
    have read := signStep_reads (located.take (Scan.of_trivia state.rest)) alternating
      (fun inside => absurd inside outside) reads
    exact read
  | @blank line outside _ starts reads =>
    have past := (starts.located located).take (Scan.of_blankLines line.rest)
    have same : line.lastKind = state.lastKind := by cases starts <;> rfl
    have read := signStep_reads past (starts.modes ▸ alternating)
      (fun inside => absurd (starts.modes ▸ inside) outside) reads
    exact same ▸ read
  | @line line step outside _ starts _ reads =>
    have past := (starts.located located).take (Scan.of_blankLines line.rest)
    have code := (located_indentation past).located.take (Scan.of_trivia _)
    have same : line.lastKind = state.lastKind := by cases starts <;> rfl
    have read := signStep_reads code (starts.modes ▸ alternating)
      (fun inside => absurd (starts.modes ▸ inside) outside) reads
    have atCode : line.atCode.lastKind = (kinds line.pastBlank.indentation.1).getLast?.or
        state.lastKind := by
      rw [← same]
      exact line.pastBlank.lastKind_indentation.symm
    refine ⟨?_, ?_, read.entersString⟩
    · rw [tokens_append]
      exact (line.pastBlank.keepsSigns_indentation _).append (atCode ▸ read.keeps)
    · rw [kinds_append, List.getLast?_append, Option.or_assoc, ← atCode]
      exact read.last

/-! ## Texts -/

/-- Whatever the lexer goes on with, signs behind operands are kept. -/
theorem keepsSigns_stream (cancelled : Bool) {state : LexState} (located : Located origin state)
    (fits : state.Fits) (entersString : EntersString state) :
    KeepsSigns origin state.lastKind (tokens (state.stream cancelled)) := by
  refine stream_induction cancelled
    (motive := fun state items => Located origin state → state.Fits → EntersString state →
      KeepsSigns origin state.lastKind (tokens items))
    (fun _ _ _ _ _ => trivial) (fun state items running _ later located fits entersString => ?_)
    state located fits entersString
  have signs : SignStep origin state.lastKind (state.proceed cancelled) := by
    cases cancelled with
    | true => exact ⟨trivial, rfl, entersString⟩
    | false => exact signStep_stepped located fits.alternating entersString (stepped state)
  have more := later (located_proceed cancelled located).located
    (fitsInto_proceed cancelled fits running).fits signs.entersString
  rw [← signs.last] at more
  rw [tokens_append]
  exact signs.keeps.append more

end LexState

end Offside
