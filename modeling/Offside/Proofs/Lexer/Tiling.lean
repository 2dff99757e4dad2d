import Mathlib.Data.List.TakeWhile
import Offside.Proofs.Lexer.Strings

/-!
The items of a text as tiles. The tokens and the gaps between them cover a text without holes and
without overlap, and every place that an item names is the origin of the text moved over what
stands before it.
-/

namespace Offside

open LexStream LexMode

/-! ## Places -/

/-- A position in a text, with the text to come. -/
structure Place where
  position : Position
  rest : List Char

namespace Place

/-- Where a text starts. A byte order mark in front counts for its bytes alone. -/
def ofSource : List Char → Place
  | '\ufeff' :: rest => ⟨⟨3, 1, 1⟩, rest⟩
  | source => ⟨.start, source⟩

def take (place : Place) (split : Scan.Split) : Place :=
  ⟨place.position.advance split.text, split.rest⟩

/-- Moving over the text between two places leads from the one to the other. -/
def Leads (first last : Place) : Prop :=
  ∃ text, first.rest = text ++ last.rest ∧ last.position = first.position.advance text

/-- Moving over some of the text leads to the position. -/
def Reaches (place : Place) (position : Position) : Prop :=
  ∃ rest, place.Leads ⟨position, rest⟩

def Covers (place : Place) (span : Span) : Prop :=
  place.Reaches span.first ∧ place.Reaches span.last

variable {first middle last : Place} {position : Position} {span : Span} {split : Scan.Split}

theorem Leads.refl (place : Place) : place.Leads place :=
  ⟨[], rfl, rfl⟩

theorem Leads.trans (earlier : first.Leads middle) (later : middle.Leads last) :
    first.Leads last := by
  obtain ⟨left, restLeft, positionLeft⟩ := earlier
  obtain ⟨right, restRight, positionRight⟩ := later
  refine ⟨left ++ right, ?_, ?_⟩
  · rw [restLeft, restRight, List.append_assoc]
  · rw [positionRight, positionLeft, Position.advance_append]

theorem leads_take (splitOf : split.Of first.rest) : first.Leads (first.take split) :=
  ⟨split.text, splitOf.symm, rfl⟩

theorem of_cons {c : Char} {input rest : List Char} (found : input = c :: rest) :
    (⟨[c], rest⟩ : Scan.Split).Of input :=
  found.symm

theorem Leads.le (leads : first.Leads last) : first.position ≤ last.position := by
  obtain ⟨text, _, position⟩ := leads
  exact position ▸ Position.le_advance _ _

theorem Leads.reaches (leads : first.Leads last) : first.Reaches last.position :=
  ⟨last.rest, leads⟩

theorem Reaches.of_leads (leads : first.Leads middle) (reaches : middle.Reaches position) :
    first.Reaches position := by
  obtain ⟨rest, later⟩ := reaches
  exact ⟨rest, leads.trans later⟩

theorem Covers.of_leads (leads : first.Leads middle) (covers : middle.Covers span) :
    first.Covers span :=
  ⟨covers.1.of_leads leads, covers.2.of_leads leads⟩

/-- No place that is reached is behind the end of the text. -/
theorem Reaches.le_of_leads {finish : Position} (reaches : first.Reaches position)
    (leads : first.Leads ⟨finish, []⟩) : position ≤ finish := by
  obtain ⟨rest, text, split, moved⟩ := reaches
  obtain ⟨whole, isWhole, atEnd⟩ := leads
  dsimp only at split moved isWhole atEnd
  rw [List.append_nil, split] at isWhole
  rw [atEnd, ← isWhole, Position.advance_append, ← moved]
  exact Position.le_advance _ _

/-- The token is a stretch of the text. It spans that, and one of layout is empty. -/
def Spells (place : Place) (token : Token) : Prop :=
  ∃ before text after, place.rest = before ++ (text ++ after) ∧ token.text = String.ofList text ∧
    token.span = ⟨place.position.advance before, (place.position.advance before).advance text⟩ ∧
    (token.kind.isStructural = true → text = [])

theorem Spells.of_take {token : Token} (splitOf : split.Of first.rest)
    (spells : (first.take split).Spells token) : first.Spells token := by
  obtain ⟨before, text, after, rest, isText, span, layout⟩ := spells
  refine ⟨split.text ++ before, text, after, ?_, isText, ?_, layout⟩
  · rw [← splitOf, List.append_assoc]
    exact congrArg (split.text ++ ·) rest
  · rw [Position.advance_append]
    exact span

theorem Spells.le {token : Token} (spells : first.Spells token) :
    first.position ≤ token.span.first ∧ token.span.first ≤ token.span.last := by
  obtain ⟨before, text, _, _, _, span, _⟩ := spells
  rw [span]
  exact ⟨Position.le_advance _ _, Position.le_advance _ _⟩

theorem covers_emptyAt (leads : first.Leads last) : first.Covers (.emptyAt last.position) :=
  ⟨leads.reaches, leads.reaches⟩

end Place

/-! ## Gaps -/

/-- What may stand between tokens, with the text behind it: a character without meaning, a line
break, a comment up to the end of its line, a closed comment, or a backslash that joins a line to
the next. -/
inductive GapPiece : List Char → List Char → Prop
  | blank {c : Char} {follow : List Char} (isBlank : Text.isBlank c = true) : GapPiece [c] follow
  | lineFeed {follow : List Char} : GapPiece ['\n'] follow
  | lineComment {body follow : List Char} (inLine : '\n' ∉ body)
    (toEnd : ∀ c ∈ follow.head?, c = '\n') : GapPiece ('/' :: '/' :: body) follow
  | blockComment {body follow : List Char} (atFirst : ¬ ['*', '/'] <:+: body ++ ['*']) :
    GapPiece ('/' :: '*' :: (body ++ ['*', '/'])) follow
  | joined {lineBreak follow : List Char} (isLineBreak : lineBreak = ['\n'] ∨ lineBreak = ['\r', '\n']) :
    GapPiece ('\\' :: lineBreak) follow

/-- Items cover the text between two places. A token of text stands for all of the text that it
spans, one of layout for none. A character that starts no token has an error of its own, and all
other errors are about what is covered anyway. -/
inductive Tiles : Place → List LexItem → Place → Prop
  | done (place : Place) : Tiles place [] place
  | gap {first last : Place} {items : List LexItem} (split : Scan.Split)
    (splitOf : split.Of first.rest) (piece : GapPiece split.text split.rest)
    (more : Tiles (first.take split) items last) : Tiles first items last
  | text {first last : Place} {items : List LexItem} {kind : Kind} (split : Scan.Split)
    (takes : split.Takes first.rest) (isText : kind.isStructural = false)
    (more : Tiles (first.take split) items last) :
    Tiles first (.token ⟨kind, String.ofList split.text,
      ⟨first.position, first.position.advance split.text⟩⟩ :: items) last
  | layout {first last : Place} {items : List LexItem} {kind : Kind}
    (structural : kind.isStructural = true) (more : Tiles first items last) :
    Tiles first (.token (.structural kind (.emptyAt first.position)) :: items) last
  | unexpected {first last : Place} {items : List LexItem} {c : Char} {rest : List Char}
    (found : first.rest = c :: rest) (more : Tiles (first.take ⟨[c], rest⟩) items last) :
    Tiles first (.error ⟨.unexpectedCharacter c,
      ⟨first.position, first.position.advance [c]⟩⟩ :: items) last
  | error {first last : Place} {items : List LexItem} {error : LexError}
    (other : ∀ c, error.fault ≠ .unexpectedCharacter c) (more : Tiles first items last) :
    Tiles first (.error error :: items) last

namespace Tiles

variable {first middle last : Place} {items more : List LexItem}

theorem append (earlier : Tiles first items middle) (later : Tiles middle more last) :
    Tiles first (items ++ more) last := by
  induction earlier with
  | done => exact later
  | gap split splitOf piece _ inductionHypothesis => exact .gap split splitOf piece (inductionHypothesis later)
  | text split takes isText _ inductionHypothesis => exact .text split takes isText (inductionHypothesis later)
  | layout structural _ inductionHypothesis => exact .layout structural (inductionHypothesis later)
  | unexpected found _ inductionHypothesis => exact .unexpected found (inductionHypothesis later)
  | error other _ inductionHypothesis => exact .error other (inductionHypothesis later)

theorem leads (tiles : Tiles first items last) : first.Leads last := by
  induction tiles with
  | done place => exact .refl place
  | gap split splitOf _ _ inductionHypothesis => exact (Place.leads_take splitOf).trans inductionHypothesis
  | text split takes _ _ inductionHypothesis => exact (Place.leads_take takes.2).trans inductionHypothesis
  | layout _ _ inductionHypothesis => exact inductionHypothesis
  | unexpected found _ inductionHypothesis =>
    exact (Place.leads_take (Place.of_cons found)).trans inductionHypothesis
  | error _ _ inductionHypothesis => exact inductionHypothesis

theorem spells (tiles : Tiles first items last) : ∀ token ∈ tokens items, first.Spells token := by
  induction tiles with
  | done => exact fun _ member => absurd member List.not_mem_nil
  | gap split splitOf _ _ inductionHypothesis =>
    exact fun token member => (inductionHypothesis token member).of_take splitOf
  | text split takes isText _ inductionHypothesis =>
    intro token member
    rcases List.mem_cons.mp member with rfl | inItems
    · refine ⟨[], split.text, split.rest, takes.2.symm, rfl, rfl, fun structural => ?_⟩
      exact absurd (isText.symm.trans structural) Bool.false_ne_true
    · exact (inductionHypothesis token inItems).of_take takes.2
  | @layout first _ _ _ _ _ inductionHypothesis =>
    intro token member
    rcases List.mem_cons.mp member with rfl | inItems
    · exact ⟨[], [], first.rest, rfl, rfl, rfl, fun _ => rfl⟩
    · exact inductionHypothesis token inItems
  | unexpected found _ inductionHypothesis =>
    exact fun token member => (inductionHypothesis token member).of_take (Place.of_cons found)
  | error _ _ inductionHypothesis => exact inductionHypothesis

/-- Tokens come in order and do not overlap. -/
theorem ordered (tiles : Tiles first items last) :
    (tokens items).Pairwise fun earlier later => earlier.span.last ≤ later.span.first := by
  induction tiles with
  | done => exact .nil
  | gap _ _ _ _ inductionHypothesis => exact inductionHypothesis
  | text split _ _ more inductionHypothesis =>
    exact .cons (fun later member => (more.spells later member).le.1) inductionHypothesis
  | layout _ more inductionHypothesis =>
    exact .cons (fun later member => (more.spells later member).le.1) inductionHypothesis
  | unexpected _ _ inductionHypothesis => exact inductionHypothesis
  | error _ _ inductionHypothesis => exact inductionHypothesis

end Tiles

/-! ## What is passed over -/

/-- The text taken is a gap, wherever it starts. -/
def IsGap (split : Scan.Split) (input : List Char) : Prop :=
  ∀ position : Position, Tiles ⟨position, input⟩ [] ((⟨position, input⟩ : Place).take split)

namespace IsGap

variable {input : List Char} {earlier split : Scan.Split}

theorem nothing (input : List Char) : IsGap (.nothing input) input :=
  fun _ => .done _

theorem piece (splitOf : split.Of input) (piece : GapPiece split.text split.rest) :
    IsGap split input :=
  fun _ => .gap split splitOf piece (.done _)

/-- One gap behind another, as scanners put them together. -/
theorem after (isGap : IsGap earlier input) (later : IsGap split earlier.rest) :
    IsGap (split.after earlier.text) input := by
  intro position
  have both := (isGap position).append (later (position.advance earlier.text))
  rwa [Place.take, ← Position.advance_append] at both

end IsGap

namespace Scan

theorem isGap_lineBreak? {input : List Char} {split : Split} (found : lineBreak? input = some split) :
    IsGap split input := by
  unfold lineBreak? at found
  split at found
  next rest =>
    obtain rfl := Option.some.inj found
    exact .piece rfl .lineFeed
  next rest =>
    obtain rfl := Option.some.inj found
    have carriage : IsGap ⟨['\r'], '\n' :: rest⟩ ('\r' :: '\n' :: rest) :=
      .piece rfl (.blank (by decide))
    have lineFeed : IsGap ⟨['\n'], rest⟩ ('\n' :: rest) := .piece rfl .lineFeed
    exact carriage.after lineFeed
  next => contradiction

/-- A block comment ends at the first mark that closes it. -/
theorem body_of_blockEnd? {input : List Char} {split : Split} (found : blockEnd? input = some split) :
    ∃ body, split.text = body ++ ['*', '/'] ∧ ¬ ['*', '/'] <:+: body ++ ['*'] := by
  fun_induction blockEnd? input generalizing split with
  | case1 rest =>
    obtain rfl := Option.some.inj found
    exact ⟨[], rfl, by decide⟩
  | case2 c rest notEnd inductionHypothesis =>
    obtain ⟨inner, innerFound, rfl⟩ := Option.map_eq_some_iff.mp found
    obtain ⟨body, text, atFirst⟩ := inductionHypothesis innerFound
    refine ⟨c :: body, by rw [Split.after, text]; rfl, fun inside => ?_⟩
    rw [List.cons_append] at inside
    rcases List.infix_cons_iff.mp inside with atStart | later
    · obtain ⟨rfl, slash⟩ := List.cons_prefix_cons.mp atStart
      have whole := of_blockEnd? innerFound
      rw [Split.Of, text] at whole
      cases body with
      | nil => exact absurd (List.cons_prefix_cons.mp slash).1 (by decide)
      | cons other body =>
        obtain ⟨rfl, _⟩ := List.cons_prefix_cons.mp slash
        exact notEnd _ rfl whole.symm
    · exact atFirst later
  | case3 => contradiction

theorem gapPiece_of_gap? {input : List Char} {split : Split} (found : gap? input = some split) :
    GapPiece split.text split.rest := by
  unfold gap? at found
  split at found
  next rest =>
    obtain rfl := Option.some.inj found
    refine .lineComment (fun member => ?_) fun c isHead => ?_
    · have passed := List.mem_takeWhile_imp member
      simp at passed
    · have stopped := List.head?_dropWhile_not (· ≠ '\n') rest
      rw [show (rest.dropWhile (· ≠ '\n')).head? = some c from isHead] at stopped
      simpa using stopped
  next rest =>
    obtain ⟨inner, innerFound, rfl⟩ := Option.map_eq_some_iff.mp found
    obtain ⟨body, text, atFirst⟩ := body_of_blockEnd? innerFound
    rw [Split.after, text]
    exact .blockComment atFirst
  next rest =>
    obtain ⟨inner, innerFound, rfl⟩ := Option.map_eq_some_iff.mp found
    unfold lineBreak? at innerFound
    split at innerFound
    next =>
      obtain rfl := Option.some.inj innerFound
      exact .joined (Or.inl rfl)
    next =>
      obtain rfl := Option.some.inj innerFound
      exact .joined (Or.inr rfl)
    next => contradiction
  next =>
    split at found
    next isBlank =>
      obtain rfl := Option.some.inj found
      exact .blank isBlank
    next => contradiction
  next => contradiction

theorem isGap_leading (input : List Char) : IsGap (leading input) input := by
  induction input with
  | nil => exact .nothing []
  | cons c input inductionHypothesis =>
    unfold leading run at inductionHypothesis ⊢
    rw [List.takeWhile_cons, List.dropWhile_cons]
    cases isBlank : Text.isBlank c with
    | true =>
      have first : IsGap ⟨[c], input⟩ (c :: input) := .piece rfl (.blank isBlank)
      exact first.after inductionHypothesis
    | false => exact .nothing (c :: input)

theorem isGap_trivia (input : List Char) : IsGap (trivia input) input := by
  fun_induction trivia input with
  | case1 input _ => exact .nothing input
  | case2 input gap found inductionHypothesis =>
    have first : IsGap gap input := .piece (takes_of_gap? found).2 (gapPiece_of_gap? found)
    exact first.after inductionHypothesis

theorem isGap_wrapped (input : List Char) : IsGap (wrapped input) input := by
  fun_induction wrapped input with
  | case1 input gap _ => exact isGap_trivia input
  | case2 input gap lineBreak found inductionHypothesis =>
    have line := (isGap_trivia input).after (isGap_lineBreak? found)
    exact line.after inductionHypothesis

theorem isGap_blankLines (input : List Char) : IsGap (blankLines input) input := by
  fun_induction blankLines input with
  | case1 input lead gap nothing =>
    have all := (isGap_leading input).after (isGap_trivia lead.rest)
    have whole : (gap.after lead.text) = ⟨input, []⟩ := by
      have splitOf := Split.of_after lead.text (of_trivia lead.rest)
      rw [of_leading input] at splitOf
      unfold Split.Of Split.after at splitOf
      dsimp only at splitOf
      rw [nothing, List.append_nil] at splitOf
      rw [Split.after, splitOf, nothing]
    exact whole ▸ all
  | case2 input lead gap _ _ => exact .nothing input
  | case3 input lead gap _ lineBreak found inductionHypothesis =>
    have line := ((isGap_leading input).after (isGap_trivia lead.rest)).after (isGap_lineBreak? found)
    exact line.after inductionHypothesis

end Scan

/-! ## Errors inside of tokens -/

namespace Scan

theorem text_stringBody (input : List Char) :
    (stringBody input).value.flatMap Spelled.text = (stringBody input).text := by
  fun_induction stringBody input with
  | case1 input _ => rfl
  | case2 input piece found more inductionHypothesis =>
    rw [List.flatMap_cons, inductionHypothesis]
    rfl

theorem text_charBody (input : List Char) :
    (charBody input).value.flatMap Spelled.text = (charBody input).text := by
  fun_induction charBody input with
  | case1 input _ => rfl
  | case2 input piece found more inductionHypothesis =>
    rw [List.flatMap_cons, inductionHypothesis]
    rfl

end Scan

namespace LexState

/-- Where the lexer is. -/
def place (state : LexState) : Place :=
  ⟨state.position, state.rest⟩

/-- Errors that are about some of the text from a place on, but not about a character that starts
no token. -/
def ErrorsWithin (place : Place) (errors : List LexError) : Prop :=
  ∀ error ∈ errors, place.Covers error.span ∧ ∀ c, error.fault ≠ .unexpectedCharacter c

variable {before state after line middle : LexState} {step : LexStep} {kind : Kind}
  {split : Scan.Split} {errors : List LexError} {origin : Place}

theorem ErrorsWithin.of_leads {first last : Place} (leads : first.Leads last)
    (within : ErrorsWithin last errors) : ErrorsWithin first errors :=
  fun error member => ⟨(within error member).1.of_leads leads, (within error member).2⟩

theorem errorsWithin_nil (place : Place) : ErrorsWithin place [] :=
  fun _ member => absurd member List.not_mem_nil

theorem errorsWithin_append {place : Place} {more : List LexError} (left : ErrorsWithin place errors)
    (right : ErrorsWithin place more) : ErrorsWithin place (errors ++ more) :=
  fun error member => (List.mem_append.mp member).elim (left error) (right error)

theorem leads_place (state : LexState) (splitOf : split.Of state.rest) :
    state.place.Leads (state.take split).place :=
  Place.leads_take splitOf

theorem covers_spanOf (splitOf : split.Of state.rest) : state.place.Covers (state.spanOf split) :=
  ⟨(Place.Leads.refl _).reaches, (state.leads_place splitOf).reaches⟩

theorem errorsWithin_decode (position : Position) (pieces : List Scan.Spelled) (rest : List Char) :
    ErrorsWithin ⟨position, pieces.flatMap Scan.Spelled.text ++ rest⟩ (decode position pieces).2 := by
  induction pieces generalizing position with
  | nil => exact errorsWithin_nil _
  | cons spelled pieces inductionHypothesis =>
    obtain ⟨text, piece⟩ := spelled
    have leads : Place.Leads ⟨position, text ++ (pieces.flatMap Scan.Spelled.text ++ rest)⟩
        ⟨position.advance text, pieces.flatMap Scan.Spelled.text ++ rest⟩ := ⟨text, rfl, rfl⟩
    have later := (inductionHypothesis (position.advance text)).of_leads leads
    rw [List.flatMap_cons, List.append_assoc]
    cases piece with
    | invalid characters =>
      intro error member
      rcases List.mem_cons.mp member with rfl | inLater
      · exact ⟨⟨(Place.Leads.refl _).reaches, leads.reaches⟩, fun _ => LexFault.noConfusion⟩
      · exact later error inLater
    | text => exact later
    | char => exact later
    | elided => exact later

theorem errorsWithin_literalValue {rest : List Char} (found : state.rest = '\'' :: rest) :
    ErrorsWithin state.place (state.literalValue rest).2 := by
  have within := errorsWithin_decode (state.position.advance ['\'']) (Scan.charBody rest).value
    (Scan.charBody rest).rest
  rw [Scan.text_charBody, Scan.of_charBody rest] at within
  have leads : state.place.Leads ⟨state.position.advance ['\''], rest⟩ := ⟨['\''], found, rfl⟩
  exact within.of_leads leads

theorem TakesCode.errorsWithin (takes : TakesCode state kind split errors after) :
    ErrorsWithin state.place errors := by
  have splitOf := takes.isPiece.takes.2
  cases takes with
  | stringStart => exact errorsWithin_nil _
  | character found _ _ => exact errorsWithin_literalValue found
  | wrongCharacter fault found _ =>
    refine errorsWithin_append (errorsWithin_literalValue found) fun error member => ?_
    rw [List.mem_singleton.mp member]
    exact ⟨covers_spanOf splitOf, fun _ => LexFault.noConfusion⟩
  | number =>
    intro error member
    obtain ⟨_, _, rfl⟩ := List.mem_map.mp member
    exact ⟨covers_spanOf splitOf, fun _ => LexFault.noConfusion⟩
  | word => exact errorsWithin_nil _
  | symbol => exact errorsWithin_nil _

theorem TakesPart.errorsWithin (takes : TakesPart state kind split errors after) :
    ErrorsWithin state.place errors := by
  cases takes with
  | stringEnd => exact errorsWithin_nil _
  | interpolationStart => exact errorsWithin_nil _
  | fragment nonempty =>
    have within := errorsWithin_decode state.position (Scan.stringBody state.rest).value
      (Scan.stringBody state.rest).rest
    rwa [Scan.text_stringBody, Scan.of_stringBody state.rest] at within

/-! ## Steps -/

theorem tiles_errors {place : Place} (other : ∀ error ∈ errors, ∀ c, error.fault ≠ .unexpectedCharacter c) :
    Tiles place (errors.map .error) place := by
  induction errors with
  | nil => exact .done place
  | cons error errors inductionHypothesis =>
    exact .error (other error List.mem_cons_self)
      (inductionHypothesis fun error member => other error (List.mem_cons_of_mem _ member))

theorem tiles_structural {kinds : List Kind} (state : LexState)
    (structural : ∀ kind ∈ kinds, kind.isStructural = true) :
    Tiles state.place (kinds.map state.structural) state.place := by
  induction kinds with
  | nil => exact .done _
  | cons kind kinds inductionHypothesis =>
    exact .layout (structural kind List.mem_cons_self)
      (inductionHypothesis fun kind member => structural kind (List.mem_cons_of_mem _ member))

/-- Items that fit the text between two states, unless the tokens end before the text. -/
structure TileShape (before : LexState) (step : LexStep) : Prop where
  tiles : (step.2.finished = true → .endOfInput ∈ kinds step.1) →
    Tiles before.place step.1 step.2.place
  ended : .endOfInput ∈ kinds step.1 → step.2.rest = []

theorem tileShape_yield (piece : IsPiece state kind split after)
    (within : ErrorsWithin state.place errors) :
    TileShape state (after.yield kind split errors) := by
  have position : after.position = state.position := by rw [piece.frame]
  refine ⟨fun _ => ?_, fun isEnd => ?_⟩
  · change Tiles state.place (.token ⟨kind, String.ofList split.text,
      ⟨after.position, after.position.advance split.text⟩⟩ :: errors.map .error)
      ⟨after.position.advance split.text, split.rest⟩
    rw [position]
    exact .text split piece.takes piece.structural
      (tiles_errors fun error member => (within error member).2)
  · rw [kinds_yield] at isEnd
    have structural := piece.structural
    rw [← List.mem_singleton.mp isEnd] at structural
    contradiction

theorem tileShape_finish (nothing : state.rest = []) (closed : state.openString? = none) :
    TileShape state state.finish := by
  unfold finish
  rw [closed]
  refine ⟨fun _ => ?_, fun _ => nothing⟩
  have tiles := tiles_structural state
    fun kind => @isStructural_of_mem_ending state.layout.depth kind
  rwa [List.map_append, List.map_replicate] at tiles

theorem tileShape_reads (reads : Reads state step) : TileShape state step := by
  cases reads with
  | code _ takes => exact tileShape_yield takes.isPiece takes.errorsWithin
  | part _ takes => exact tileShape_yield takes.isPiece takes.errorsWithin
  | unexpected _ found =>
    exact ⟨fun _ => .unexpected found (.done _), fun isEnd => absurd isEnd List.not_mem_nil⟩
  | ends nothing closed => exact tileShape_finish nothing closed
  | fails fails =>
    exact ⟨fun ends => absurd (ends rfl) List.not_mem_nil, fun isEnd => absurd isEnd List.not_mem_nil⟩

/-- A gap, and the items of it if there are some, in front of a step. -/
theorem TileShape.behind {items : List LexItem} (shape : TileShape after step)
    (earlier : Tiles before.place items after.place) (layout : .endOfInput ∉ kinds items) :
    TileShape before (items ++ step.1, step.2) := by
  refine ⟨fun ends => earlier.append (shape.tiles fun ended => ?_), fun isEnd => shape.ended ?_⟩
  · have isEnd := ends ended
    rw [kinds_append] at isEnd
    exact (List.mem_append.mp isEnd).resolve_left layout
  · rw [kinds_append] at isEnd
    exact (List.mem_append.mp isEnd).resolve_left layout

theorem TileShape.of_gap (shape : TileShape after step) (gap : Tiles before.place [] after.place) :
    TileShape before step :=
  shape.behind gap List.not_mem_nil

theorem tiles_take (state : LexState) {split : Scan.Split} (isGap : IsGap split state.rest) :
    Tiles state.place [] (state.take split).place :=
  isGap state.position

theorem LineStarts.tiles (starts : LineStarts state line) : Tiles state.place [] line.place := by
  cases starts with
  | here => exact .done _
  | next _ found =>
    exact (state.tiles_take (Scan.isGap_trivia state.rest)).append
      (Scan.isGap_lineBreak? found (state.position.advance (Scan.trivia state.rest).text))

theorem tiles_pastBlank (line : LexState) : Tiles line.place [] line.pastBlank.place :=
  line.tiles_take (Scan.isGap_blankLines line.rest)

theorem span_of_mem_lineErrors {span : Span} {result : Except IndentationFault LineLayout}
    {error : LexError} (member : error ∈ lineErrors span result) :
    error.span = span ∧ ∀ c, error.fault ≠ .unexpectedCharacter c := by
  cases result with
  | ok => exact absurd member List.not_mem_nil
  | error fault =>
    rw [List.mem_singleton.mp member]
    exact ⟨rfl, fun _ => LexFault.noConfusion⟩

theorem tiles_indentation (state : LexState) :
    Tiles state.place state.indentation.1 state.indentation.2.place := by
  unfold indentation
  dsimp only
  have mixed : Tiles state.place ((if (state.layout.measure (Scan.leading state.rest).text).mixed then
      [⟨.mixedIndentation, state.spanOf (Scan.leading state.rest)⟩] else ([] : List LexError)).map
        .error) state.place := by
    refine tiles_errors fun error member => ?_
    split at member
    · rw [List.mem_singleton.mp member]
      exact fun _ => LexFault.noConfusion
    · exact absurd member List.not_mem_nil
  refine (mixed.append ?_).append (tiles_errors fun error member => ?_)
  · have gap := state.tiles_take (Scan.isGap_leading state.rest)
    exact gap.append (tiles_structural _ fun kind member => by
      rcases layout_of_mem_lineKinds member with rfl | rfl | rfl
      · rfl
      · rfl
      · rfl)
  · exact (span_of_mem_lineErrors member).2

theorem tileShape_stepped (stepped : Stepped state step) : TileShape state step := by
  cases stepped with
  | inString _ reads => exact tileShape_reads reads
  | inBrackets _ _ reads =>
    exact (tileShape_reads reads).of_gap (state.tiles_take (Scan.isGap_wrapped state.rest))
  | inLine _ _ _ _ reads =>
    exact (tileShape_reads reads).of_gap (state.tiles_take (Scan.isGap_trivia state.rest))
  | @blank line _ _ starts reads =>
    exact (tileShape_reads reads).of_gap (starts.tiles.append (tiles_pastBlank line))
  | @line line _ _ _ starts _ reads =>
    have gap := line.pastBlank.indentation.2.tiles_take
      (Scan.isGap_trivia line.pastBlank.indentation.2.rest)
    have code := (tileShape_reads reads).behind
      (((starts.tiles.append (tiles_pastBlank line)).append
        (tiles_indentation line.pastBlank)).append gap) ?_
    · rwa [List.nil_append, List.nil_append, List.append_nil] at code
    · rw [List.nil_append, List.nil_append, List.append_nil]
      exact not_mem_kinds_indentation _

theorem tileShape_proceed (cancelled : Bool) (state : LexState) :
    TileShape state (state.proceed cancelled) := by
  cases cancelled with
  | true =>
    exact ⟨fun ends => absurd (ends rfl) List.not_mem_nil, fun isEnd => absurd isEnd List.not_mem_nil⟩
  | false => exact tileShape_stepped (stepped state)

end LexState

/-! ## Positions -/

namespace LexItem

def span : LexItem → Span
  | .token found => found.span
  | .error found => found.span

end LexItem

namespace LexState

variable {before state after line middle : LexState} {step : LexStep} {kind : Kind}
  {split : Scan.Split} {errors : List LexError} {origin : Place}

/-- All that a lexer knows of positions lies on the way from the origin. -/
structure Located (origin : Place) (state : LexState) : Prop where
  leads : origin.Leads state.place
  starts : ∀ start, .string start ∈ state.modes → origin.Reaches start

structure LocatedStep (origin : Place) (step : LexStep) : Prop where
  located : Located origin step.2
  covers : ∀ item ∈ step.1, origin.Covers item.span

theorem Located.take (located : Located origin state) (splitOf : split.Of state.rest) :
    Located origin (state.take split) :=
  ⟨located.leads.trans (state.leads_place splitOf), located.starts⟩

theorem Located.of_same (located : Located origin state) (place : after.place = state.place)
    (modes : after.modes = state.modes) : Located origin after :=
  ⟨place ▸ located.leads, modes ▸ located.starts⟩

/-- A string that is open after a token was open before, or starts there. -/
theorem TakesCode.starts (takes : TakesCode state kind split errors after) (start : Position)
    (member : .string start ∈ after.modes) :
    .string start ∈ state.modes ∨ start = state.position := by
  cases takes with
  | stringStart =>
    rcases List.mem_cons.mp member with isNew | inModes
    · injection isNew with isNew
      exact Or.inr isNew
    · exact Or.inl inModes
  | symbol =>
    left
    rcases bracket_modes state _ with ⟨outer, modes, _, after⟩ | ⟨_, same | counted⟩
    · rw [after] at member
      exact modes ▸ List.mem_cons_of_mem _ member
    · exact same ▸ member
    · obtain ⟨braces, more, outer, modes, after⟩ := counted
      rw [after] at member
      rw [modes]
      exact List.mem_cons_of_mem _ ((List.mem_cons.mp member).resolve_left LexMode.noConfusion)
  | _ => exact Or.inl member

theorem TakesPart.starts (takes : TakesPart state kind split errors after) (start : Position)
    (member : .string start ∈ after.modes) : .string start ∈ state.modes := by
  cases takes with
  | stringEnd => exact List.mem_of_mem_tail member
  | interpolationStart => exact (List.mem_cons.mp member).resolve_left LexMode.noConfusion
  | fragment => exact member

theorem located_yield (located : Located origin state) (piece : IsPiece state kind split after)
    (within : ErrorsWithin state.place errors)
    (starts : ∀ start, .string start ∈ after.modes → origin.Reaches start) :
    LocatedStep origin (after.yield kind split errors) := by
  have position : after.position = state.position := by rw [piece.frame]
  have same : after.spanOf split = state.spanOf split := by rw [spanOf, spanOf, position]
  have further := (located.take piece.takes.2).leads
  refine ⟨⟨?_, starts⟩, fun item member => ?_⟩
  · change origin.Leads ⟨after.position.advance split.text, split.rest⟩
    rw [position]
    exact further
  · rcases List.mem_cons.mp member with rfl | inErrors
    · change origin.Covers (after.spanOf split)
      exact same ▸ (covers_spanOf piece.takes.2).of_leads located.leads
    · obtain ⟨error, isError, rfl⟩ := List.mem_map.mp inErrors
      exact (within error isError).1.of_leads located.leads

theorem reaches_openString? (located : Located origin state) {start : Position}
    (opened : state.openString? = some start) : origin.Reaches start := by
  obtain ⟨mode, inModes, isString⟩ := List.exists_of_findSome?_eq_some opened
  cases mode with
  | string first => exact Option.some.inj isString ▸ located.starts first inModes
  | interpolation braces => exact absurd isString (Option.some_ne_none _).symm

theorem located_fails {construct : Unterminated} {span : Span} (located : Located origin state)
    (fails : Fails state middle construct span) :
    LocatedStep origin (middle.fail construct span) := by
  have here : ∀ {span : Span}, origin.Covers span → ∀ item ∈ [LexItem.error ⟨.unterminated construct, span⟩],
      origin.Covers item.span := by
    intro span covers item member
    rw [List.mem_singleton.mp member]
    exact covers
  cases fails with
  | string opened _ =>
    exact ⟨located.of_same rfl rfl,
      here ⟨reaches_openString? located opened, located.leads.reaches⟩⟩
  | @character rest found _ =>
    have quote : Located origin (state.take ⟨['\''], rest⟩) := located.take found.symm
    have body := quote.take (Scan.of_charBody rest)
    exact ⟨located.of_same rfl rfl, here ⟨located.leads.reaches, body.leads.reaches⟩⟩
  | comment takes =>
    exact ⟨(located.take takes.2).of_same rfl rfl, here ((covers_spanOf takes.2).of_leads located.leads)⟩

theorem located_finish (located : Located origin state) (closed : state.openString? = none) :
    LocatedStep origin state.finish := by
  unfold finish
  rw [closed]
  refine ⟨located.of_same rfl rfl, fun item member => ?_⟩
  rcases List.mem_append.mp member with isDedent | isEnd
  · rw [List.eq_of_mem_replicate isDedent]
    exact Place.covers_emptyAt located.leads
  · rw [List.mem_singleton.mp isEnd]
    exact Place.covers_emptyAt located.leads

theorem located_reads (located : Located origin state) (reads : Reads state step) :
    LocatedStep origin step := by
  cases reads with
  | code _ takes =>
    refine located_yield located takes.isPiece takes.errorsWithin fun start member => ?_
    rcases takes.starts start member with inModes | isHere
    · exact located.starts start inModes
    · exact isHere ▸ located.leads.reaches
  | part _ takes =>
    exact located_yield located takes.isPiece takes.errorsWithin fun start member =>
      located.starts start (takes.starts start member)
  | unexpected _ found =>
    refine ⟨located.take (Place.of_cons found), fun item member => ?_⟩
    rw [List.mem_singleton.mp member]
    exact (covers_spanOf (Place.of_cons found)).of_leads located.leads
  | ends _ closed => exact located_finish located closed
  | fails fails => exact located_fails located fails

theorem located_indentation (located : Located origin state) :
    LocatedStep origin state.indentation := by
  have lead := located.take (Scan.of_leading state.rest)
  have span := (covers_spanOf (Scan.of_leading state.rest)).of_leads located.leads
  unfold indentation
  dsimp only
  refine ⟨lead.of_same rfl rfl, fun item member => ?_⟩
  rcases List.mem_append.mp member with inFront | isFault
  · rcases List.mem_append.mp inFront with isMixed | isLayout
    · obtain ⟨error, inMixed, rfl⟩ := List.mem_map.mp isMixed
      split at inMixed
      · rw [List.mem_singleton.mp inMixed]
        exact span
      · exact absurd inMixed List.not_mem_nil
    · obtain ⟨kind, _, rfl⟩ := List.mem_map.mp isLayout
      exact Place.covers_emptyAt lead.leads
  · obtain ⟨error, inErrors, rfl⟩ := List.mem_map.mp isFault
    change origin.Covers error.span
    rw [(span_of_mem_lineErrors inErrors).1]
    exact span

theorem LineStarts.located (starts : LineStarts state line) (located : Located origin state) :
    Located origin line := by
  cases starts with
  | here => exact located
  | next _ found =>
    have gap := (located.take (Scan.of_trivia state.rest)).take (Scan.takes_of_lineBreak? found).2
    exact gap.of_same rfl rfl

theorem located_stepped (located : Located origin state) (stepped : Stepped state step) :
    LocatedStep origin step := by
  cases stepped with
  | inString _ reads => exact located_reads located reads
  | inBrackets _ _ reads => exact located_reads (located.take (Scan.of_wrapped state.rest)) reads
  | inLine _ _ _ _ reads => exact located_reads (located.take (Scan.of_trivia state.rest)) reads
  | @blank line _ _ starts reads =>
    exact located_reads ((starts.located located).take (Scan.of_blankLines line.rest)) reads
  | @line line _ _ _ starts _ reads =>
    have past := (starts.located located).take (Scan.of_blankLines line.rest)
    have layout := located_indentation past
    have code := located_reads (layout.located.take (Scan.of_trivia _)) reads
    exact ⟨code.located, fun item member => (List.mem_append.mp member).elim
      (layout.covers item) (code.covers item)⟩

theorem located_proceed (cancelled : Bool) (located : Located origin state) :
    LocatedStep origin (state.proceed cancelled) := by
  cases cancelled with
  | true =>
    refine ⟨located.of_same rfl rfl, fun item member => ?_⟩
    rw [List.mem_singleton.mp member]
    exact Place.covers_emptyAt located.leads
  | false => exact located_stepped located (stepped state)

/-- The items to come and the end of all steps are about the text behind the origin. -/
theorem located_final (cancelled : Bool) {state : LexState} (located : Located origin state) :
    (∀ item ∈ state.stream cancelled, origin.Covers item.span) ∧
      Located origin (state.final cancelled).state := by
  cases finished : state.finished with
  | true =>
    rw [stream_of_finished cancelled finished, final_of_finished cancelled finished]
    exact ⟨fun _ member => absurd member List.not_mem_nil, located⟩
  | false =>
    have proceeded := located_proceed cancelled located
    have fewer : (state.proceed cancelled).2.remaining < state.remaining :=
      remaining_lt_of_advances finished (state.advances_proceed cancelled)
    obtain ⟨covers, atEnd⟩ := located_final cancelled proceeded.located
    rw [stream_of_running cancelled finished, final_of_running cancelled finished]
    refine ⟨fun item member => ?_, atEnd⟩
    exact (List.mem_append.mp member).elim (proceeded.covers item) (covers item)
termination_by state.remaining

end LexState

/-! ## Whole texts -/

theorem Position.offset_advance (position : Position) (text : List Char) :
    (position.advance text).offset = position.offset + Text.byteLength text := by
  induction text generalizing position with
  | nil => rfl
  | cons c text inductionHypothesis =>
    have moved : (position.past c).offset = position.offset + c.utf8Size := by
      unfold Position.past
      split <;> rfl
    rw [Position.advance_cons, inductionHypothesis, moved, Text.byteLength, Nat.add_assoc]

theorem Text.byteLength_append (left right : List Char) :
    Text.byteLength (left ++ right) = Text.byteLength left + Text.byteLength right := by
  induction left with
  | nil => exact (Nat.zero_add _).symm
  | cons c left inductionHypothesis =>
    rw [List.cons_append, Text.byteLength, inductionHypothesis, Text.byteLength, Nat.add_assoc]

theorem Text.slice?_append (before text after : List Char) :
    Text.slice? (before ++ (text ++ after)) (Text.byteLength before)
      (Text.byteLength before + Text.byteLength text) = some text := by
  rw [Text.slice?, if_pos (Nat.le_add_right _ _), Text.dropBytes?_byteLength_append,
    Option.bind_some, Nat.add_sub_cancel_left, Text.takeBytes?_byteLength_append]

/-- The origin stands behind the byte order mark, if there is one. -/
theorem Place.ofSource_cases (source : List Char) : ∃ mark, source = mark ++ (Place.ofSource source).rest ∧
    (Place.ofSource source).position.offset = Text.byteLength mark := by
  unfold Place.ofSource
  split
  next rest => exact ⟨['\ufeff'], rfl, rfl⟩
  next => exact ⟨[], rfl, rfl⟩

theorem Place.ofSource_of_noMark {source : List Char} (noMark : source.head? ≠ some '\ufeff') :
    Place.ofSource source = ⟨.start, source⟩ := by
  unfold Place.ofSource
  split
  next => exact absurd rfl noMark
  next => rfl

theorem LexState.place_ofSource (tabWidth : Nat) (source : List Char) :
    (LexState.ofSource tabWidth source).place = .ofSource source := by
  by_cases marked : source.head? = some '\ufeff'
  · obtain ⟨rest, rfl⟩ := List.head?_eq_some_iff.mp marked
    rfl
  · rw [LexState.ofSource_of_noMark marked, Place.ofSource_of_noMark marked]
    rfl

/-- The position is the origin moved over the text up to its offset. -/
def IsPositionOf (source : List Char) (position : Position) : Prop :=
  ∃ text, Text.slice? source (Place.ofSource source).position.offset position.offset = some text ∧
    position = (Place.ofSource source).position.advance text

theorem isPositionOf_of_reaches {source : List Char} {position : Position}
    (reaches : (Place.ofSource source).Reaches position) : IsPositionOf source position := by
  obtain ⟨mark, whole, offset⟩ := Place.ofSource_cases source
  obtain ⟨rest, text, split, moved⟩ := reaches
  dsimp only at split moved
  refine ⟨text, ?_, moved⟩
  rw [moved, Position.offset_advance, offset]
  rw [split] at whole
  rw [whole]
  exact Text.slice?_append mark text rest

theorem text?_of_spells {source : List Char} {token : Token}
    (spells : (Place.ofSource source).Spells token) :
    token.span.text? source = some token.text.toList := by
  obtain ⟨mark, whole, offset⟩ := Place.ofSource_cases source
  obtain ⟨before, text, after, split, isText, span, _⟩ := spells
  rw [split, ← List.append_assoc] at whole
  have lengths : (Place.ofSource source).position.offset + Text.byteLength before =
      Text.byteLength (mark ++ before) := by
    rw [offset, Text.byteLength_append]
  rw [Span.text?, span, isText, String.toList_ofList, Position.offset_advance,
    Position.offset_advance, Position.offset_advance, lengths, whole]
  exact Text.slice?_append _ _ _

/-- Items that cover a text without losing anything. -/
structure Lossless (source : List Char) (items : List LexItem) : Prop where
  /-- Tokens and gaps, one behind the other, are the text from its origin to its end. -/
  tiles : ∃ last : Place, last.rest = [] ∧ Tiles (.ofSource source) items last
  slices : ∀ token ∈ tokens items, token.span.text? source = some token.text.toList
  structural : ∀ token ∈ tokens items, token.kind.isStructural = true →
    token.text = "" ∧ token.span.first = token.span.last
  forward : ∀ token ∈ tokens items, token.span.first ≤ token.span.last
  ordered : (tokens items).Pairwise fun earlier later => earlier.span.last ≤ later.span.first

theorem Tiles.lossless {source : List Char} {items : List LexItem} {last : Place}
    (tiles : Tiles (.ofSource source) items last) (atEnd : last.rest = []) :
    Lossless source items := by
  refine ⟨⟨last, atEnd, tiles⟩, fun token member => text?_of_spells (tiles.spells token member),
    fun token member structural => ?_, fun token member => (tiles.spells token member).le.2,
    tiles.ordered⟩
  obtain ⟨before, text, _, _, isText, span, layout⟩ := tiles.spells token member
  obtain rfl := layout structural
  rw [isText, span]
  exact ⟨rfl, rfl⟩

/-- Some items before a state, as far as the text is covered by them. -/
structure Tiled (source : List Char) (items : List LexItem) (state : LexState) : Prop where
  located : LexState.Located (.ofSource source) state
  covers : ∀ item ∈ items, (Place.ofSource source).Covers item.span
  tiles : state.finished = false → Tiles (.ofSource source) items state.place
  endless : state.finished = false → Endless items
  ended : .endOfInput ∈ kinds items → Lossless source items

theorem tiled_ofSource (tabWidth : Nat) (source : List Char) :
    Tiled source [] (.ofSource tabWidth source) := by
  have place := LexState.place_ofSource tabWidth source
  refine ⟨⟨place ▸ .refl _, fun _ inModes => ?_⟩, fun _ member => absurd member List.not_mem_nil,
    fun _ => place ▸ .done _, fun _ _ member => absurd member List.not_mem_nil,
    fun isEnd => absurd isEnd List.not_mem_nil⟩
  unfold LexState.ofSource at inModes
  exact absurd inModes List.not_mem_nil

theorem tiled_proceed (cancelled : Bool) {source : List Char} {items : List LexItem} {state : LexState}
    (running : state.finished = false) (tiled : Tiled source items state) :
    Tiled source (items ++ (state.proceed cancelled).1) (state.proceed cancelled).2 := by
  have located := LexState.located_proceed cancelled tiled.located
  have shape := LexState.tileShape_proceed cancelled state
  have ending := (LexState.stepShape_proceed cancelled running).ending
  have tiles := tiled.tiles running
  have endless := tiled.endless running
  refine ⟨located.located, fun item member => ?_, fun goesOn => ?_, fun goesOn => ?_, fun isEnd => ?_⟩
  · exact (List.mem_append.mp member).elim (tiled.covers item) (located.covers item)
  · exact tiles.append (shape.tiles fun ended => absurd (goesOn.symm.trans ended) Bool.false_ne_true)
  · rw [if_neg (by simp [goesOn])] at ending
    exact endless.append ending.2
  · rw [kinds_append] at isEnd
    have inStep := (List.mem_append.mp isEnd).resolve_left (not_mem_kinds_of_endless endless)
    exact (tiles.append (shape.tiles fun _ => inStep)).lossless (shape.ended inStep)

/-- Every place that the items of a text name is the place it stands for. Once the end of input was
yielded, the items cover all of the text. -/
theorem lossless_ofSource (settings : Settings) (source : List Char) (requests : List Bool) :
    (∀ item ∈ (Lexer.ofSource settings.tabWidth source).answers requests,
        IsPositionOf source item.span.first ∧ IsPositionOf source item.span.last) ∧
      (.endOfInput ∈ kinds ((Lexer.ofSource settings.tabWidth source).answers requests) →
        Lossless source ((Lexer.ofSource settings.tabWidth source).answers requests)) := by
  have tiled := Lexer.drawn_induction
    (fun cancelled _ _ running tiled => tiled_proceed cancelled running tiled) requests
    (tiled_ofSource settings.tabWidth source)
  rw [Lexer.drawn] at tiled
  refine ⟨fun item member => ?_, fun isEnd => ?_⟩
  · have covers := tiled.covers item (List.mem_append_left _ member)
    exact ⟨isPositionOf_of_reaches covers.1, isPositionOf_of_reaches covers.2⟩
  · have lossless := tiled.ended (by
      rw [kinds_append]
      exact List.mem_append_left _ isEnd)
    rwa [Lexer.pending_eq_nil_of_end rfl isEnd, List.append_nil] at lossless

end Offside
