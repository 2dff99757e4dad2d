import Offside.Scan.Blank

/-!
Pieces of string and character literals: runs of text, characters, and what a backslash starts.
-/

namespace Offside.Scan

/-- A decoded piece of a literal. A backslash before a line break stands for nothing, and an
escape that can not be decoded is kept as it is written. -/
inductive Piece
  | text (characters : List Char)
  | char (value : Char)
  | elided
  | invalid (characters : List Char)
deriving DecidableEq, Repr, Inhabited

def charOfCode? (code : Nat) : Option Char :=
  if code.isValidChar then some (Char.ofNat code) else none

/-- A character given by `count` hexadecimal digits. -/
def hexChar? (count : Nat) (input : List Char) : Option (Scanned Char) :=
  let digits := upTo Text.isHexDigit count input
  if digits.text.length = count then
    (charOfCode? (Text.numberOf 16 digits.text)).map fun value => ⟨digits, value⟩
  else none

/-- A character given by one to six hexadecimal digits between curly brackets. -/
def bracedChar? : List Char → Option (Scanned Char)
  | '\x7b' :: input =>
    let digits := upTo Text.isHexDigit 6 input
    match digits.rest with
    | '\x7d' :: rest =>
      if digits.text = [] then none
      else
        (charOfCode? (Text.numberOf 16 digits.text)).map fun value =>
          ⟨⟨'\x7b' :: digits.text ++ ['\x7d'], rest⟩, value⟩
    | _ => none
  | _ => none

/-- The character that a letter stands for after a backslash. Every other character stands for
itself. -/
def letterValue (c : Char) : Char :=
  if c = 'n' then '\n'
  else if c = 't' then '\t'
  else if c = 'r' then '\r'
  else if c = 'b' then '\x08'
  else if c = 'f' then '\x0c'
  else if c = 'v' then '\x0b'
  else if c = 'a' then '\x07'
  else if c = 'e' then '\x1b'
  else c

/-- What is taken of a code point after `u` that can not be decoded: everything up to the closing
bracket, as long as the literal and the line go on, or the digits that are there. -/
def brokenCode : List Char → Split
  | '\x7b' :: input =>
    let body := run (fun c => c ≠ '\x7d' && c ≠ '"' && c ≠ '\'' && c ≠ '\n') input
    match body.rest with
    | '\x7d' :: rest => ⟨'\x7b' :: body.text ++ ['\x7d'], rest⟩
    | _ => body.after ['\x7b']
  | input => upTo Text.isHexDigit 4 input

/-- A decoded escape, of the given text before the scanned one. -/
private def decoded (lead : List Char) (scanned : Scanned Char) : Scanned Piece :=
  ⟨scanned.toSplit.after lead, .char scanned.value⟩

/-- An escape that is kept as it is written, of the given text before the split. -/
private def broken (lead : List Char) (split : Split) : Scanned Piece :=
  ⟨split.after lead, .invalid (lead ++ split.text)⟩

/-- What a backslash starts, given the text after it. The taken text holds the backslash. -/
def escape (input : List Char) : Scanned Piece :=
  match lineBreak? input with
  | some lineBreak => ⟨lineBreak.after ['\\'], .elided⟩
  | none =>
    match input with
    | [] => broken ['\\'] (.nothing [])
    | '\r' :: rest => broken ['\\'] (.nothing ('\r' :: rest))
    | 'u' :: rest =>
      match (bracedChar? rest).or (hexChar? 4 rest) with
      | some scanned => decoded ['\\', 'u'] scanned
      | none => broken ['\\', 'u'] (brokenCode rest)
    | 'x' :: rest =>
      match hexChar? 2 rest with
      | some scanned => decoded ['\\', 'x'] scanned
      | none => broken ['\\', 'x'] (upTo Text.isHexDigit 2 rest)
    | c :: rest =>
      if Text.isOctalDigit c then
        let digits := upTo Text.isOctalDigit 3 (c :: rest)
        ⟨digits.after ['\\'], .char (Char.ofNat (Text.numberOf 8 digits.text))⟩
      else ⟨⟨['\\', c], rest⟩, .char (letterValue c)⟩

/-- A character that a run of string text can not hold. -/
def endsText (c : Char) : Bool :=
  c = '"' || c = '\\' || c = '\x7b' || c = '\n'

/-- A piece of a string: an escape, or all text up to the next escape. There is none at a closing
quote, an interpolation, a line break or the end of the text. -/
def stringPiece? : List Char → Option (Scanned Piece)
  | [] => none
  | c :: rest =>
    if c = '\\' then some (escape rest)
    else if endsText c then none
    else
      let text := (run (fun other => !endsText other) rest).after [c]
      some ⟨text, .text text.text⟩

/-- A piece of a character literal: an escape or one character. There is none at a closing quote,
a line break or the end of the text. -/
def charPiece? : List Char → Option (Scanned Piece)
  | [] => none
  | c :: rest =>
    if c = '\\' then some (escape rest)
    else if c = '\'' || c = '\n' then none
    else some ⟨⟨[c], rest⟩, .char c⟩

theorem of_hexChar? {count : Nat} {input : List Char} {scanned : Scanned Char}
    (found : hexChar? count input = some scanned) : scanned.toSplit.Of input := by
  unfold hexChar? at found
  dsimp only at found
  split at found
  · obtain ⟨value, _, rfl⟩ := Option.map_eq_some_iff.mp found
    exact of_upTo _ _ _
  · simp at found

theorem of_bracedChar? {input : List Char} {scanned : Scanned Char}
    (found : bracedChar? input = some scanned) : scanned.toSplit.Of input := by
  unfold bracedChar? at found
  split at found
  next input =>
    have digits := of_upTo Text.isHexDigit 6 input
    dsimp only at found
    split at found
    next rest restEquality =>
      split at found
      · simp at found
      · obtain ⟨value, _, rfl⟩ := Option.map_eq_some_iff.mp found
        unfold Split.Of at digits ⊢
        rw [restEquality] at digits
        simpa using digits
    next => simp at found
  next => simp at found

theorem of_brokenCode (input : List Char) : (brokenCode input).Of input := by
  unfold brokenCode
  split
  next input =>
    have body := of_run (fun c => c ≠ '\x7d' && c ≠ '"' && c ≠ '\'' && c ≠ '\n') input
    dsimp only
    split
    next rest restEquality =>
      unfold Split.Of at body ⊢
      rw [restEquality] at body
      simpa using body
    next => exact Split.of_after ['\x7b'] body
  next => exact of_upTo _ _ _

private theorem takes_decoded (lead : List Char) {input : List Char} {scanned : Scanned Char}
    (nonempty : lead ≠ []) (splitOf : scanned.toSplit.Of input) :
    (decoded lead scanned).toSplit.Takes (lead ++ input) :=
  ⟨by simp [decoded, Split.after, nonempty], Split.of_after lead splitOf⟩

private theorem takes_broken (lead : List Char) {input : List Char} {split : Split}
    (nonempty : lead ≠ []) (splitOf : split.Of input) :
    (broken lead split).toSplit.Takes (lead ++ input) :=
  ⟨by simp [broken, Split.after, nonempty], Split.of_after lead splitOf⟩

theorem takes_escape (input : List Char) : (escape input).toSplit.Takes ('\\' :: input) := by
  unfold escape
  split
  next lineBreak found =>
    exact ⟨by simp [Split.after], Split.of_after ['\\'] (takes_of_lineBreak? found).2⟩
  next =>
    split
    · exact takes_broken ['\\'] (by simp) (Split.of_nothing [])
    · exact takes_broken ['\\'] (by simp) (Split.of_nothing _)
    · split
      next scanned found =>
        refine takes_decoded ['\\', 'u'] (by simp) ?_
        rcases Option.or_eq_some_iff.mp found with braced | ⟨_, plain⟩
        · exact of_bracedChar? braced
        · exact of_hexChar? plain
      next => exact takes_broken ['\\', 'u'] (by simp) (of_brokenCode _)
    · split
      next scanned found => exact takes_decoded ['\\', 'x'] (by simp) (of_hexChar? found)
      next => exact takes_broken ['\\', 'x'] (by simp) (of_upTo _ _ _)
    · split
      · exact ⟨by simp [Split.after], Split.of_after ['\\'] (of_upTo _ _ _)⟩
      · simp [Split.Takes, Split.Of]

theorem takes_of_stringPiece? {input : List Char} {scanned : Scanned Piece}
    (found : stringPiece? input = some scanned) : scanned.toSplit.Takes input := by
  unfold stringPiece? at found
  split at found
  · simp at found
  · split at found
    next same =>
      simp only [Option.some.injEq] at found
      subst found same
      exact takes_escape _
    next =>
      split at found
      · simp at found
      · simp only [Option.some.injEq] at found
        subst found
        exact ⟨by simp [Split.after], Split.of_after [_] (of_run _ _)⟩

theorem takes_of_charPiece? {input : List Char} {scanned : Scanned Piece}
    (found : charPiece? input = some scanned) : scanned.toSplit.Takes input := by
  unfold charPiece? at found
  split at found
  · simp at found
  · split at found
    next same =>
      simp only [Option.some.injEq] at found
      subst found same
      exact takes_escape _
    next =>
      split at found
      · simp at found
      · simp only [Option.some.injEq] at found
        subst found
        simp [Split.Takes, Split.Of]

structure Spelled where
  text : List Char
  piece : Piece
deriving DecidableEq, Repr, Inhabited

/-- The pieces of a string up to where there is none. -/
def stringBody (input : List Char) : Scanned (List Spelled) :=
  match _found : stringPiece? input with
  | none => ⟨.nothing input, []⟩
  | some piece =>
    let more := stringBody piece.rest
    ⟨more.toSplit.after piece.text, ⟨piece.text, piece.value⟩ :: more.value⟩
termination_by input.length
decreasing_by exact (takes_of_stringPiece? _found).length_lt

def charBody (input : List Char) : Scanned (List Spelled) :=
  match _found : charPiece? input with
  | none => ⟨.nothing input, []⟩
  | some piece =>
    let more := charBody piece.rest
    ⟨more.toSplit.after piece.text, ⟨piece.text, piece.value⟩ :: more.value⟩
termination_by input.length
decreasing_by exact (takes_of_charPiece? _found).length_lt

theorem of_stringBody (input : List Char) : (stringBody input).toSplit.Of input := by
  fun_induction stringBody input with
  | case1 input _ => exact Split.of_nothing input
  | case2 input piece found more inductionHypothesis =>
    have covers := Split.of_after piece.text inductionHypothesis
    rwa [(takes_of_stringPiece? found).2] at covers

theorem of_charBody (input : List Char) : (charBody input).toSplit.Of input := by
  fun_induction charBody input with
  | case1 input _ => exact Split.of_nothing input
  | case2 input piece found more inductionHypothesis =>
    have covers := Split.of_after piece.text inductionHypothesis
    rwa [(takes_of_charPiece? found).2] at covers

end Offside.Scan
