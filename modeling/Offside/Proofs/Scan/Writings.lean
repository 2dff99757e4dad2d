import Offside.Proofs.Scan.Extend
import Offside.Proofs.Scan.Literals

/-!
The ways to write the characters of a literal. Whichever way each character is written, the
scanners find exactly those characters again: no escape is taken for another one, and none takes
anything of what is written after it.
-/

namespace Offside

namespace Scan

/-! ## Writing -/

/-- The letters with a meaning of their own after a backslash, and what they stand for. -/
def letterEscapes : List (Char × Char) :=
  [('n', '\n'), ('t', '\t'), ('r', '\r'), ('b', '\x08'), ('f', '\x0c'), ('v', '\x0b'),
    ('a', '\x07'), ('e', '\x1b')]

/-- The characters that do not stand for themselves after a backslash. -/
def escapeHeads : List Char :=
  ['x', 'u', '0', '1', '2', '3', '4', '5', '6', '7', 'n', 't', 'r', 'b', 'f', 'v', 'a', 'e', '\n',
    '\r']

/-- The characters that a string can not hold as themselves. -/
def stringReserved : List Char :=
  ['"', '\\', '\x7b', '\n']

/-- The characters that a character literal can not hold as themselves. -/
def charReserved : List Char :=
  ['\'', '\\', '\n']

/-- The ways to write one character of a literal with the given reserved characters. -/
inductive Writes (reserved : List Char) (c : Char) : List Char → Prop
  | itself (free : c ∉ reserved) : Writes reserved c [c]
  | byte {digits : List Char} (hexadecimal : ∀ digit ∈ digits, Text.isHexDigit digit = true)
      (count : digits.length = 2) (value : Text.numberOf 16 digits = c.toNat) :
      Writes reserved c ('\\' :: 'x' :: digits)
  | code {digits : List Char} (hexadecimal : ∀ digit ∈ digits, Text.isHexDigit digit = true)
      (count : digits.length = 4) (value : Text.numberOf 16 digits = c.toNat) :
      Writes reserved c ('\\' :: 'u' :: digits)
  | braced {digits : List Char} (hexadecimal : ∀ digit ∈ digits, Text.isHexDigit digit = true)
      (nonempty : digits ≠ []) (count : digits.length ≤ 6)
      (value : Text.numberOf 16 digits = c.toNat) :
      Writes reserved c ('\\' :: 'u' :: '\x7b' :: (digits ++ ['\x7d']))
  | octal {digits : List Char} (octal : ∀ digit ∈ digits, Text.isOctalDigit digit = true)
      (count : digits.length = 3) (value : Text.numberOf 8 digits = c.toNat) :
      Writes reserved c ('\\' :: digits)
  | letter {letter : Char} (named : (letter, c) ∈ letterEscapes) : Writes reserved c ['\\', letter]
  | backslash (plain : c ∉ escapeHeads) : Writes reserved c ['\\', c]

/-- The ways to write characters one after another. Between them line breaks may be escaped. -/
inductive WritesAll (reserved : List Char) : List Char → List Char → Prop
  | nil : WritesAll reserved [] []
  | char {c : Char} {characters text more : List Char} (first : Writes reserved c text)
      (others : WritesAll reserved characters more) :
      WritesAll reserved (c :: characters) (text ++ more)
  | lineBreak {lineBreak characters more : List Char}
      (isBreak : lineBreak = ['\n'] ∨ lineBreak = ['\r', '\n'])
      (others : WritesAll reserved characters more) :
      WritesAll reserved characters ('\\' :: (lineBreak ++ more))

/-! ## Escapes -/

/-- As many digits as there may be are taken, even when more follow. -/
theorem upTo_full {test : Char → Bool} {text : List Char} (follow : List Char)
    (all : ∀ c ∈ text, test c = true) :
    upTo test text.length (text ++ follow) = ⟨text, follow⟩ := by
  induction text with
  | nil => cases follow <;> rfl
  | cons c text inductionHypothesis =>
    have later := inductionHypothesis fun other member => all other (List.mem_cons_of_mem c member)
    rw [List.length_cons, List.cons_append, upTo, if_pos (all c List.mem_cons_self), later]
    rfl

theorem hexChar?_digits {digits : List Char} {c : Char} (follow : List Char)
    (hexadecimal : ∀ digit ∈ digits, Text.isHexDigit digit = true)
    (value : Text.numberOf 16 digits = c.toNat) :
    hexChar? digits.length (digits ++ follow) = some ⟨⟨digits, follow⟩, c⟩ := by
  rw [hexChar?, upTo_full follow hexadecimal, if_pos rfl, value, charOfCode?_toNat]
  rfl

/-- A digit stands before no line break, and is none of the letters that longer escapes have. -/
theorem octalDigit_apart {c : Char} (octal : Text.isOctalDigit c = true) :
    c ≠ '\n' ∧ c ≠ '\r' ∧ c ≠ 'u' ∧ c ≠ 'x' := by
  have apart : ∀ other, Text.isOctalDigit other = false → c ≠ other := by
    rintro other noDigit rfl
    exact Bool.noConfusion (octal.symm.trans noDigit)
  exact ⟨apart _ rfl, apart _ rfl, apart _ rfl, apart _ rfl⟩

theorem lineBreak?_apart {c : Char} (noFeed : c ≠ '\n') (noReturn : c ≠ '\r') (rest : List Char) :
    lineBreak? (c :: rest) = none := by
  unfold lineBreak?
  split
  next same => exact absurd (List.cons.inj same).1 noFeed
  next same => exact absurd (List.cons.inj same).1 noReturn
  next => rfl

theorem escape_lineBreak {lineBreak : List Char}
    (isBreak : lineBreak = ['\n'] ∨ lineBreak = ['\r', '\n']) (rest : List Char) :
    escape (lineBreak ++ rest) = ⟨⟨'\\' :: lineBreak, rest⟩, .elided⟩ := by
  have joined : lineBreak? (lineBreak ++ rest) = some ⟨lineBreak, rest⟩ := by
    rcases isBreak with rfl | rfl
    · rfl
    · rfl
  exact escape_of_joined joined

theorem escape_octal {digits : List Char} {c : Char} (follow : List Char)
    (octal : ∀ digit ∈ digits, Text.isOctalDigit digit = true) (count : digits.length = 3)
    (value : Text.numberOf 8 digits = c.toNat) :
    escape (digits ++ follow) = ⟨⟨'\\' :: digits, follow⟩, .char c⟩ := by
  have taken : upTo Text.isOctalDigit 3 (digits ++ follow) = ⟨digits, follow⟩ :=
    count ▸ upTo_full follow octal
  obtain ⟨first, others, rfl⟩ := List.exists_cons_of_length_eq_add_one count
  have firstOctal := octal first List.mem_cons_self
  obtain ⟨noFeed, noReturn, noCode, noByte⟩ := octalDigit_apart firstOctal
  rw [List.cons_append] at taken ⊢
  rw [escape_of_other (lineBreak?_apart noFeed noReturn _) noReturn noCode noByte,
    if_pos firstOctal]
  simp only [taken, value, Char.ofNat_toNat]
  rfl

/-- What a backslash starts when a character without a longer escape follows. -/
theorem escape_single {c : Char} (apart : c ∉ ['x', 'u', '\n', '\r'])
    (noDigit : Text.isOctalDigit c = false) (follow : List Char) :
    escape (c :: follow) = ⟨⟨['\\', c], follow⟩, .char (letterValue c)⟩ := by
  simp only [List.mem_cons, List.not_mem_nil, or_false, not_or] at apart
  obtain ⟨noByte, noCode, noFeed, noReturn⟩ := apart
  rw [escape_of_other (lineBreak?_apart noFeed noReturn _) noReturn noCode noByte,
    if_neg (by simp [noDigit])]

theorem escape_letter {letter c : Char} (named : (letter, c) ∈ letterEscapes)
    (follow : List Char) : escape (letter :: follow) = ⟨⟨['\\', letter], follow⟩, .char c⟩ := by
  have all : ∀ pair ∈ letterEscapes, pair.1 ∉ ['x', 'u', '\n', '\r'] ∧
      Text.isOctalDigit pair.1 = false ∧ letterValue pair.1 = pair.2 := by decide
  obtain ⟨apart, noDigit, value⟩ := all _ named
  rw [escape_single apart noDigit, value]

theorem isOctalDigit_eq_false {c : Char} (plain : c ∉ ['0', '1', '2', '3', '4', '5', '6', '7']) :
    Text.isOctalDigit c = false := by
  rw [Bool.eq_false_iff]
  intro octal
  simp only [Text.isOctalDigit, Bool.and_eq_true, decide_eq_true_eq, Char.le_def,
    UInt32.le_iff_toNat_le] at octal
  have values : ∀ code ∈ List.range' 48 8,
      Char.ofNat code ∈ ['0', '1', '2', '3', '4', '5', '6', '7'] := by decide
  apply plain
  rw [← Char.ofNat_toNat c]
  exact values _ (by rw [List.mem_range']; exact ⟨c.toNat - 48, by
    change 48 ≤ c.toNat ∧ c.toNat ≤ 55 at octal
    omega⟩)

theorem escape_plain {c : Char} (plain : c ∉ escapeHeads) (follow : List Char) :
    escape (c :: follow) = ⟨⟨['\\', c], follow⟩, .char c⟩ := by
  have subset : ∀ heads : List Char, heads ⊆ escapeHeads → c ∉ heads :=
    fun heads inside member => plain (inside member)
  have noDigit := isOctalDigit_eq_false (subset _ (by decide))
  rw [escape_single (subset _ (by decide)) noDigit]
  have value : letterValue c = c := by
    simp only [escapeHeads, List.mem_cons, List.not_mem_nil, or_false, not_or] at plain
    simp only [letterValue, plain, if_false]
  rw [value]

/-- A character is written as itself, or as an escape that is read back whatever follows. -/
theorem Writes.cases_escape {reserved : List Char} {c : Char} {text : List Char}
    (writes : Writes reserved c text) :
    (text = [c] ∧ c ∉ reserved) ∨
      ∃ body, text = '\\' :: body ∧
        ∀ follow, escape (body ++ follow) = ⟨⟨text, follow⟩, .char c⟩ := by
  cases writes with
  | itself free => exact Or.inl ⟨rfl, free⟩
  | @byte digits hexadecimal count value =>
    refine Or.inr ⟨_, rfl, fun follow => ?_⟩
    have found := hexChar?_digits follow hexadecimal value
    rw [count] at found
    exact escape_byte_of_some found
  | @code digits hexadecimal count value =>
    refine Or.inr ⟨_, rfl, fun follow => ?_⟩
    have found := hexChar?_digits follow hexadecimal value
    rw [count] at found
    have noBrace : bracedChar? (digits ++ follow) = none := by
      obtain ⟨first, others, rfl⟩ := List.exists_cons_of_length_eq_add_one count
      apply bracedChar?_of_ne
      rintro rfl
      exact absurd (hexadecimal _ List.mem_cons_self) (by decide)
    exact escape_code_of_some (by rw [noBrace, Option.none_or, found])
  | @braced digits hexadecimal nonempty count value =>
    refine Or.inr ⟨_, rfl, fun follow => ?_⟩
    have found := bracedChar?_digits follow hexadecimal nonempty count value
    have taken := congrArg (Option.or · (hexChar? 4 ('\x7b' :: (digits ++ '\x7d' :: follow)))) found
    rw [List.cons_append, List.cons_append, List.append_assoc, List.singleton_append]
    exact escape_code_of_some taken
  | octal octal count value =>
    exact Or.inr ⟨_, rfl, fun follow => escape_octal follow octal count value⟩
  | letter named => exact Or.inr ⟨_, rfl, escape_letter named⟩
  | backslash plain => exact Or.inr ⟨_, rfl, escape_plain plain⟩

/-! ## Bodies of literals -/

/-- What a piece of a literal stands for, unless it is wrong. -/
def Piece.characters? : Piece → Option (List Char)
  | .text characters => some characters
  | .char c => some [c]
  | .elided => some []
  | .invalid _ => none

/-- The pieces of a literal take the given text and stand for the given characters. -/
def Decodes (body : Scanned (List Spelled)) (text follow characters : List Char) : Prop :=
  body.toSplit = ⟨text, follow⟩ ∧
    ∀ position, LexState.decode position body.value = (characters, [])

variable {body : Scanned (List Spelled)} {more follow characters : List Char}

theorem Decodes.nothing (follow : List Char) : Decodes ⟨.nothing follow, []⟩ [] follow [] :=
  ⟨rfl, fun _ => rfl⟩

theorem Decodes.piece (decodes : Decodes body more follow characters) (text : List Char)
    (piece : Piece) {value : List Char} (valid : piece.characters? = some value) :
    Decodes ⟨body.toSplit.after text, ⟨text, piece⟩ :: body.value⟩ (text ++ more) follow
      (value ++ characters) := by
  refine ⟨?_, fun position => ?_⟩
  · rw [decodes.1]
    rfl
  · cases piece with
    | invalid => contradiction
    | text => rw [← Option.some.inj valid, LexState.decode, decodes.2]
    | char | elided =>
      rw [← Option.some.inj valid, LexState.decode, decodes.2]
      rfl

theorem endsText_eq_false {c : Char} (free : c ∉ stringReserved) : endsText c = false := by
  simp only [stringReserved, List.mem_cons, List.not_mem_nil, or_false, not_or] at free
  simp [endsText, free]

/-- A run of text, which is one piece, starts with this character. -/
theorem stringPiece?_text {c : Char} (free : c ∉ stringReserved) (rest : List Char) :
    stringPiece? (c :: rest) = some ⟨(run (fun other => !endsText other) rest).after [c],
      .text (c :: (run (fun other => !endsText other) rest).text)⟩ := by
  have noEscape : c ≠ '\\' := by
    rintro rfl
    exact free (by decide)
  rw [stringPiece?, if_neg noEscape, if_neg (by simp [endsText_eq_false free])]
  rfl

/-- A character before the inside of a string joins the run of text that is there, if any. -/
theorem Decodes.text {c : Char} {text : List Char} (free : c ∉ stringReserved)
    (decodes : Decodes (stringBody more) text follow characters) :
    Decodes (stringBody (c :: more)) (c :: text) follow (c :: characters) := by
  have whole := stringBody_of_some (stringPiece?_text free more)
  by_cases continues : ∃ d rest, more = d :: rest ∧ d ∉ stringReserved
  · obtain ⟨d, rest, rfl, alsoFree⟩ := continues
    have inner := stringBody_of_some (stringPiece?_text alsoFree rest)
    have joined : run (fun other => !endsText other) (d :: rest) =
        (run (fun other => !endsText other) rest).after [d] := by
      simp [run, Split.after, endsText_eq_false alsoFree]
    rw [joined] at whole
    rw [whole]
    rw [inner] at decodes
    generalize run (fun other => !endsText other) rest = taken at decodes ⊢
    generalize stringBody taken.rest = body at decodes ⊢
    obtain ⟨splits, decoded⟩ := decodes
    refine ⟨?_, fun position => ?_⟩
    · exact congrArg (Split.after [c]) splits
    · have value := decoded (position.advance [c])
      rw [LexState.decode, ← Position.advance_append] at value
      rw [LexState.decode]
      obtain ⟨same, noErrors⟩ := Prod.mk.inj value
      exact Prod.ext (congrArg (c :: ·) same) noErrors
  · have stops : run (fun other => !endsText other) more = ⟨[], more⟩ := by
      cases more with
      | nil => rfl
      | cons d rest =>
        have ends : endsText d = true := by
          by_contra goesOn
          refine continues ⟨d, rest, rfl, ?_⟩
          simpa [endsText, stringReserved, and_assoc] using goesOn
        simp [run, ends]
    rw [stops] at whole
    rw [whole]
    exact decodes.piece [c] (.text [c]) rfl

/-- What is written inside of a string is read back, up to where the string ends. -/
theorem WritesAll.stringBody {text : List Char}
    (writes : WritesAll stringReserved characters text) (stops : stringPiece? follow = none) :
    Decodes (stringBody (text ++ follow)) text follow characters := by
  induction writes with
  | nil =>
    rw [List.nil_append, stringBody_of_none stops]
    exact .nothing follow
  | @char c characters text more first others inductionHypothesis =>
    rcases first.cases_escape with ⟨rfl, free⟩ | ⟨body, rfl, escapes⟩
    · exact .text free inductionHypothesis
    · have found : stringPiece? ('\\' :: body ++ more ++ follow) =
          some ⟨⟨'\\' :: body, more ++ follow⟩, .char c⟩ := by
        rw [List.append_assoc, List.cons_append, stringPiece?, if_pos rfl, escapes]
      rw [stringBody_of_some found]
      exact inductionHypothesis.piece _ (.char c) rfl
  | @lineBreak lineBreak characters more isBreak others inductionHypothesis =>
    have found : stringPiece? ('\\' :: (lineBreak ++ more) ++ follow) =
        some ⟨⟨'\\' :: lineBreak, more ++ follow⟩, .elided⟩ := by
      rw [List.cons_append, List.append_assoc, stringPiece?, if_pos rfl, escape_lineBreak isBreak]
    rw [stringBody_of_some found]
    exact inductionHypothesis.piece _ .elided rfl

/-- The same for a character literal. -/
theorem WritesAll.charBody {text : List Char} (writes : WritesAll charReserved characters text)
    (stops : charPiece? follow = none) :
    Decodes (charBody (text ++ follow)) text follow characters := by
  induction writes with
  | nil =>
    rw [List.nil_append, charBody_of_none stops]
    exact .nothing follow
  | @char c characters text more first others inductionHypothesis =>
    have found : charPiece? (text ++ more ++ follow) = some ⟨⟨text, more ++ follow⟩, .char c⟩ := by
      rcases first.cases_escape with ⟨rfl, free⟩ | ⟨body, rfl, escapes⟩
      · simp only [charReserved, List.mem_cons, List.not_mem_nil, or_false, not_or] at free
        simp [charPiece?, free]
      · rw [List.append_assoc, List.cons_append, charPiece?, if_pos rfl, escapes]
    rw [charBody_of_some found]
    exact inductionHypothesis.piece text (.char c) rfl
  | @lineBreak lineBreak characters more isBreak others inductionHypothesis =>
    have found : charPiece? ('\\' :: (lineBreak ++ more) ++ follow) =
        some ⟨⟨'\\' :: lineBreak, more ++ follow⟩, .elided⟩ := by
      rw [List.cons_append, List.append_assoc, charPiece?, if_pos rfl, escape_lineBreak isBreak]
    rw [charBody_of_some found]
    exact inductionHypothesis.piece _ .elided rfl

end Scan

end Offside
