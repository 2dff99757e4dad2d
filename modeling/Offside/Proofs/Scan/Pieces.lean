import Offside.Proofs.Scan.Extend

/-!
Where the pieces of a literal end. There is none at the characters that a literal can not go over,
nor at the end of the text, and everywhere else there is one that takes some of the text. What is
kept of an escape that can not be decoded is all that was taken of it. So the pieces come to an end
wherever they start, and are the text up to there.
-/

namespace Offside.Scan

/-- The text has ended, or is at one of some characters. -/
def AtStop (stops input : List Char) : Prop :=
  input = [] ∨ ∃ c rest, input = c :: rest ∧ c ∈ stops

/-- What no piece of a string starts with: a closing quote, an interpolation or a line break. -/
def stringStops : List Char :=
  ['"', '\x7b', '\n']

/-- What no piece of a character literal starts with: a closing quote or a line break. -/
def charStops : List Char :=
  ['\'', '\n']

theorem AtStop.nil (stops : List Char) : AtStop stops [] :=
  Or.inl rfl

theorem atStop_cons {stops rest : List Char} {c : Char} :
    AtStop stops (c :: rest) ↔ c ∈ stops := by
  constructor
  · rintro (isNil | ⟨_, _, same, isStop⟩)
    · exact absurd isNil (List.cons_ne_nil _ _)
    · exact (List.cons.inj same).1 ▸ isStop
  · exact fun isStop => Or.inr ⟨c, rest, rfl, isStop⟩

theorem AtStop.of_singleton {c : Char} {input : List Char} (stops : AtStop [c] input) :
    input = [] ∨ ∃ rest, input = c :: rest := by
  rcases stops with isNil | ⟨other, rest, rfl, isStop⟩
  · exact Or.inl isNil
  · exact Or.inr ⟨rest, List.mem_singleton.mp isStop ▸ rfl⟩

/-- What is at a stop but not at one of them is at one of the others. -/
theorem AtStop.of_ne {c : Char} {others input : List Char} (stops : AtStop (c :: others) input)
    (different : ∀ rest, input ≠ c :: rest) : AtStop others input := by
  cases input with
  | nil => exact .nil _
  | cons first rest =>
    rw [atStop_cons] at stops ⊢
    rcases List.mem_cons.mp stops with rfl | isOther
    · exact absurd rfl (different rest)
    · exact isOther

/-- Neither closed nor interrupted by an interpolation, a string stops at the end of its line. -/
theorem AtStop.lineFeed {input : List Char} (stops : AtStop stringStops input)
    (noEnd : ∀ rest, input ≠ '"' :: rest) (noInterpolation : ∀ rest, input ≠ '\x7b' :: rest) :
    AtStop ['\n'] input :=
  (stops.of_ne noEnd).of_ne noInterpolation

/-- A character literal that is not closed stops at the end of its line. -/
theorem AtStop.lineFeed_of_unclosed {input : List Char} (stops : AtStop charStops input)
    (unclosed : ∀ rest, input ≠ '\'' :: rest) : AtStop ['\n'] input :=
  stops.of_ne unclosed

/-! ## One piece -/

theorem stringPiece?_eq_none_iff (input : List Char) :
    stringPiece? input = none ↔ AtStop stringStops input := by
  cases input with
  | nil => exact ⟨fun _ => .nil _, fun _ => rfl⟩
  | cons c rest =>
    rw [atStop_cons, stringPiece?]
    by_cases isEscape : c = '\\'
    · subst isEscape
      rw [if_pos rfl]
      exact ⟨fun missing => absurd missing (Option.some_ne_none _),
        fun isStop => absurd isStop (by decide)⟩
    · rw [if_neg isEscape]
      simp [endsText, stringStops, isEscape, or_iff_not_imp_left]

theorem charPiece?_eq_none_iff (input : List Char) :
    charPiece? input = none ↔ AtStop charStops input := by
  cases input with
  | nil => exact ⟨fun _ => .nil _, fun _ => rfl⟩
  | cons c rest =>
    rw [atStop_cons, charPiece?]
    by_cases isEscape : c = '\\'
    · subst isEscape
      rw [if_pos rfl]
      exact ⟨fun missing => absurd missing (Option.some_ne_none _),
        fun isStop => absurd isStop (by decide)⟩
    · rw [if_neg isEscape]
      simp [charStops, or_iff_not_imp_left]

/-- An escape that can not be decoded is kept with nothing left out of what was taken. -/
def KeepsInvalid (scanned : Scanned Piece) : Prop :=
  ∀ characters, scanned.value = .invalid characters → characters = scanned.text

theorem keepsInvalid_escape (input : List Char) : KeepsInvalid (escape input) := by
  intro characters
  unfold escape
  split
  · exact fun isInvalid => absurd isInvalid Piece.noConfusion
  · split
    · exact fun isInvalid => (Piece.invalid.inj isInvalid).symm
    · exact fun isInvalid => (Piece.invalid.inj isInvalid).symm
    · split
      · exact fun isInvalid => absurd isInvalid Piece.noConfusion
      · exact fun isInvalid => (Piece.invalid.inj isInvalid).symm
    · split
      · exact fun isInvalid => absurd isInvalid Piece.noConfusion
      · exact fun isInvalid => (Piece.invalid.inj isInvalid).symm
    · split
      · exact fun isInvalid => absurd isInvalid Piece.noConfusion
      · exact fun isInvalid => absurd isInvalid Piece.noConfusion

theorem keepsInvalid_of_stringPiece? {input : List Char} {scanned : Scanned Piece}
    (found : stringPiece? input = some scanned) : KeepsInvalid scanned := by
  cases input with
  | nil => exact absurd found.symm (Option.some_ne_none _)
  | cons c rest =>
    rw [stringPiece?] at found
    split at found
    · exact Option.some.inj found ▸ keepsInvalid_escape rest
    · split at found
      · exact absurd found.symm (Option.some_ne_none _)
      · obtain rfl := Option.some.inj found
        exact fun _ isInvalid => absurd isInvalid Piece.noConfusion

theorem keepsInvalid_of_charPiece? {input : List Char} {scanned : Scanned Piece}
    (found : charPiece? input = some scanned) : KeepsInvalid scanned := by
  cases input with
  | nil => exact absurd found.symm (Option.some_ne_none _)
  | cons c rest =>
    rw [charPiece?] at found
    split at found
    · exact Option.some.inj found ▸ keepsInvalid_escape rest
    · split at found
      · exact absurd found.symm (Option.some_ne_none _)
      · obtain rfl := Option.some.inj found
        exact fun _ isInvalid => absurd isInvalid Piece.noConfusion

/-! ## One piece after the other -/

section Repetition

/-- The pieces that are taken one after the other until there is none, and what is left then. -/
inductive Repeats (piece? : List Char → Option (Scanned Piece)) :
    List Char → List Spelled → List Char → Prop
  | stop {input : List Char} (missing : piece? input = none) : Repeats piece? input [] input
  | piece {input rest : List Char} {scanned : Scanned Piece} {pieces : List Spelled}
    (found : piece? input = some scanned) (more : Repeats piece? scanned.rest pieces rest) :
    Repeats piece? input (⟨scanned.text, scanned.value⟩ :: pieces) rest

/-- One text is what a piece leaves of another. -/
def LeftOf (piece? : List Char → Option (Scanned Piece)) (rest input : List Char) : Prop :=
  ∃ scanned, piece? input = some scanned ∧ scanned.rest = rest

/-- The text of some pieces. -/
def spelling (pieces : List Spelled) : List Char :=
  pieces.flatMap Spelled.text

variable {piece? : List Char → Option (Scanned Piece)} {input rest : List Char}
  {pieces : List Spelled}

theorem wellFounded_leftOf
    (takes : ∀ {input scanned}, piece? input = some scanned → scanned.toSplit.Takes input) :
    WellFounded (LeftOf piece?) := by
  refine Subrelation.wf ?_ (measure List.length).wf
  rintro _ input ⟨scanned, found, rfl⟩
  exact (takes found).length_lt

theorem Repeats.missing (repeats : Repeats piece? input pieces rest) : piece? rest = none := by
  induction repeats with
  | stop missing => exact missing
  | piece _ _ inductionHypothesis => exact inductionHypothesis

theorem Repeats.covers
    (takes : ∀ {input scanned}, piece? input = some scanned → scanned.toSplit.Takes input)
    (repeats : Repeats piece? input pieces rest) : spelling pieces ++ rest = input := by
  induction repeats with
  | stop => rfl
  | @piece input rest scanned pieces found _ inductionHypothesis =>
    have whole : spelling (⟨scanned.text, scanned.value⟩ :: pieces) =
        scanned.text ++ spelling pieces :=
      List.flatMap_cons
    rw [whole, List.append_assoc, inductionHypothesis]
    exact (takes found).2

theorem Repeats.unique {other : List Spelled} {left : List Char}
    (repeats : Repeats piece? input pieces rest) (again : Repeats piece? input other left) :
    other = pieces ∧ left = rest := by
  induction repeats generalizing other left with
  | stop missing =>
    cases again with
    | stop => exact ⟨rfl, rfl⟩
    | piece found => exact absurd (missing.symm.trans found).symm (Option.some_ne_none _)
  | piece found _ inductionHypothesis =>
    cases again with
    | stop missing => exact absurd (missing.symm.trans found).symm (Option.some_ne_none _)
    | piece foundAgain more =>
      obtain rfl := Option.some.inj (found.symm.trans foundAgain)
      obtain ⟨rfl, rfl⟩ := inductionHypothesis more
      exact ⟨rfl, rfl⟩

theorem repeats_stringBody (input : List Char) :
    Repeats stringPiece? input (stringBody input).value (stringBody input).rest := by
  fun_induction stringBody input with
  | case1 input missing => exact .stop missing
  | case2 input piece found more inductionHypothesis => exact .piece found inductionHypothesis

theorem repeats_charBody (input : List Char) :
    Repeats charPiece? input (charBody input).value (charBody input).rest := by
  fun_induction charBody input with
  | case1 input missing => exact .stop missing
  | case2 input piece found more inductionHypothesis => exact .piece found inductionHypothesis

/-- A string without another piece is at a stop. -/
theorem atStop_of_stringBody (nothing : (stringBody input).value = []) :
    AtStop stringStops input := by
  rw [← stringPiece?_eq_none_iff]
  cases found : stringPiece? input with
  | none => rfl
  | some piece =>
    rw [stringBody_of_some found] at nothing
    exact absurd nothing (List.cons_ne_nil _ _)

theorem atStop_charBody (input : List Char) : AtStop charStops (charBody input).rest :=
  (charPiece?_eq_none_iff _).mp (repeats_charBody input).missing

end Repetition

/-- The pieces of one sort of literal. They are taken by a scanner that finds none at the stops of
the literal and at the end of the text, and the body of a literal is all of them. -/
structure Pieces (stops : List Char) (piece? : List Char → Option (Scanned Piece))
    (body : List Char → Scanned (List Spelled)) : Prop where
  missing_iff : ∀ input, piece? input = none ↔ AtStop stops input
  /-- A piece is some of the text, from its start. -/
  takes : ∀ input scanned, piece? input = some scanned →
    scanned.text ≠ [] ∧ scanned.text ++ scanned.rest = input
  invalid : ∀ input scanned, piece? input = some scanned →
    ∀ characters, scanned.value = .invalid characters → characters = scanned.text
  /-- From no text can pieces be taken without end. -/
  terminates : WellFounded (LeftOf piece?)
  /-- From every text some pieces are taken up to a stop, and they are the text up to there. -/
  repeats : ∀ input, ∃ pieces rest, Repeats piece? input pieces rest ∧
    spelling pieces ++ rest = input ∧ AtStop stops rest
  /-- There is one way to take them, which is how the body of a literal is taken. -/
  body : ∀ input pieces rest, Repeats piece? input pieces rest ↔
    body input = ⟨⟨spelling pieces, rest⟩, pieces⟩

/-- What is to be shown of a scanner is about one piece. -/
theorem Pieces.of_piece {stops : List Char} {piece? : List Char → Option (Scanned Piece)}
    {body : List Char → Scanned (List Spelled)}
    (missing : ∀ input, piece? input = none ↔ AtStop stops input)
    (takes : ∀ {input scanned}, piece? input = some scanned → scanned.toSplit.Takes input)
    (keeps : ∀ {input scanned}, piece? input = some scanned → KeepsInvalid scanned)
    (split : ∀ input, (body input).toSplit.Of input)
    (repeats : ∀ input, Repeats piece? input (body input).value (body input).rest) :
    Pieces stops piece? body where
  missing_iff := missing
  takes _ _ found := takes found
  invalid _ _ found := keeps found
  terminates := wellFounded_leftOf takes
  repeats input :=
    ⟨_, _, repeats input, (repeats input).covers takes, (missing _).mp (repeats input).missing⟩
  body input pieces rest := by
    constructor
    · intro taken
      obtain ⟨samePieces, sameRest⟩ := taken.unique (repeats input)
      have whole : (body input).text ++ (body input).rest = spelling pieces ++ rest :=
        (split input).trans (taken.covers takes).symm
      rw [sameRest] at whole
      have sameText := List.append_cancel_right whole
      calc
        body input = ⟨⟨(body input).text, (body input).rest⟩, (body input).value⟩ := rfl
        _ = ⟨⟨spelling pieces, rest⟩, pieces⟩ := by rw [sameText, sameRest, samePieces]
    · intro same
      have taken := repeats input
      rwa [same] at taken

theorem pieces_string : Pieces stringStops stringPiece? stringBody :=
  .of_piece stringPiece?_eq_none_iff takes_of_stringPiece? keepsInvalid_of_stringPiece?
    of_stringBody repeats_stringBody

theorem pieces_char : Pieces charStops charPiece? charBody :=
  .of_piece charPiece?_eq_none_iff takes_of_charPiece? keepsInvalid_of_charPiece?
    of_charBody repeats_charBody

end Offside.Scan
