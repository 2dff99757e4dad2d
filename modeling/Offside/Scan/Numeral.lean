import Offside.Scan.Split
import Offside.Token.Kind

/-!
Number literals. A literal is first scanned as it is written and then evaluated; one that is not
valid still has a value, beside the reason why it is not.
-/

namespace Offside.Scan

/-- A number literal as it is written. A missing whole part is empty. -/
structure Numeral where
  negative : Bool
  whole : List Char
  fraction : Option (List Char)
  suffix : Option FloatSuffix
deriving DecidableEq, Repr, Inhabited

inductive NumeralFault
  | looseSeparator
  | leadingZero
  | outOfRange
deriving DecidableEq, Repr, Inhabited

def NumeralFault.message : NumeralFault → String
  | looseSeparator => "`_` separators must be surrounded by digits"
  | leadingZero => "integers can not have leading zeros"
  | outOfRange => "integer does not fit in 64 bits"

/-- A digit, then digits and separators. -/
def digitRun? : List Char → Option Split
  | c :: rest =>
    if Text.isDigit c then
      some ((run (fun other => Text.isDigit other || other = '_') rest).after [c])
    else none
  | [] => none

/-- A point and the digits after it. The value is the digits alone. -/
def fraction? : List Char → Option (Scanned (List Char))
  | '.' :: rest => (digitRun? rest).map fun digits => ⟨digits.after ['.'], digits.text⟩
  | _ => none

/-- A sign that directly precedes a digit. The value tells whether it is a minus. -/
def sign? : List Char → Option (Scanned Bool)
  | c :: digit :: rest =>
    if (c = '+' || c = '-') && Text.isDigit digit then some ⟨⟨[c], digit :: rest⟩, c = '-'⟩
    else none
  | _ => none

/-- A letter that marks a floating-point literal, unless a name goes on after it. -/
def suffix? : List Char → Option (Scanned FloatSuffix)
  | c :: rest =>
    if rest.head?.any Text.isNameContinue then none
    else (FloatSuffix.ofChar? c).map fun suffix => ⟨⟨[c], rest⟩, suffix⟩
  | [] => none

/-- A number with its fraction and suffix but without its sign. A fraction alone is a number
only where an operand may start. -/
def magnitude? (operand negative : Bool) (input : List Char) : Option (Scanned Numeral) :=
  let finish (split : Split) (whole : List Char) (fraction : Option (List Char)) :=
    match suffix? split.rest with
    | some suffix =>
      ⟨suffix.toSplit.after split.text, ⟨negative, whole, fraction, some suffix.value⟩⟩
    | none => ⟨split, ⟨negative, whole, fraction, none⟩⟩
  match digitRun? input with
  | some whole =>
    match fraction? whole.rest with
    | some fraction => some (finish (fraction.toSplit.after whole.text) whole.text (some fraction.value))
    | none => some (finish whole whole.text none)
  | none =>
    if operand then
      (fraction? input).map fun fraction => finish fraction.toSplit [] (some fraction.value)
    else none

/-- A number literal. Where an operand may start, a sign directly before a digit belongs to it,
and so does a point that no digit precedes. -/
def numeral? (operand : Bool) (input : List Char) : Option (Scanned Numeral) :=
  match if operand then sign? input else none with
  | some sign =>
    (magnitude? operand sign.value sign.rest).map fun number =>
      { number with toSplit := number.toSplit.after sign.text }
  | none => magnitude? operand false input

namespace Numeral

/-- A separator that no digit follows. -/
def hasLooseSeparator : List Char → Bool
  | [] => false
  | ['_'] => true
  | '_' :: '_' :: _ => true
  | _ :: rest => hasLooseSeparator rest

def digits (run : List Char) : List Char :=
  run.filter (· ≠ '_')

def isFloat (numeral : Numeral) : Bool :=
  numeral.fraction.isSome || numeral.suffix.isSome

/-- The integers that a literal can stand for are those of 64 bits. -/
def inRange (value : Int) : Bool :=
  -9223372036854775808 ≤ value && value ≤ 9223372036854775807

/-- The first thing wrong with the separators or the leading zeros. -/
def spellingFault? (numeral : Numeral) : Option NumeralFault :=
  if hasLooseSeparator numeral.whole || numeral.fraction.any hasLooseSeparator then
    some .looseSeparator
  else if !numeral.isFloat && 1 < (digits numeral.whole).length
      && (digits numeral.whole).head? = some '0' then
    some .leadingZero
  else none

def integer (numeral : Numeral) : Int :=
  let absolute : Int := Text.numberOf 10 (digits numeral.whole)
  if numeral.negative then -absolute else absolute

/-- The floating-point number nearest to what the literal spells. -/
def float (numeral : Numeral) : Binary64 :=
  let places := digits (numeral.fraction.getD [])
  Binary64.ofDecimal numeral.negative (Text.numberOf 10 (digits numeral.whole ++ places))
    places.length

/-- The kind of token a literal is, and why it is not valid if it is not. An integer out of
range counts as zero, and that is what is said to be wrong with it. -/
def evaluate (numeral : Numeral) : Kind × Option NumeralFault :=
  if numeral.isFloat then (.float numeral.float numeral.suffix, numeral.spellingFault?)
  else if inRange numeral.integer then (.integer numeral.integer, numeral.spellingFault?)
  else (.integer 0, some .outOfRange)

end Numeral

theorem takes_of_digitRun? {input : List Char} {split : Split}
    (found : digitRun? input = some split) : split.Takes input := by
  unfold digitRun? at found
  split at found
  · split at found
    · simp at found; subst found
      exact ⟨by simp [Split.after], Split.of_after [_] (of_run _ _)⟩
    · simp at found
  · simp at found

theorem takes_of_fraction? {input : List Char} {scanned : Scanned (List Char)}
    (found : fraction? input = some scanned) : scanned.toSplit.Takes input := by
  unfold fraction? at found
  split at found
  · obtain ⟨inner, innerFound, rfl⟩ := Option.map_eq_some_iff.mp found
    exact ⟨by simp [Split.after], Split.of_after ['.'] (takes_of_digitRun? innerFound).2⟩
  · simp at found

theorem takes_of_sign? {input : List Char} {scanned : Scanned Bool}
    (found : sign? input = some scanned) : scanned.toSplit.Takes input := by
  unfold sign? at found
  split at found
  · split at found
    · simp at found; subst found; simp [Split.Takes, Split.Of]
    · simp at found
  · simp at found

theorem takes_of_suffix? {input : List Char} {scanned : Scanned FloatSuffix}
    (found : suffix? input = some scanned) : scanned.toSplit.Takes input := by
  unfold suffix? at found
  split at found
  · split at found
    · simp at found
    · obtain ⟨suffix, _, rfl⟩ := Option.map_eq_some_iff.mp found
      simp [Split.Takes, Split.Of]
  · simp at found

private theorem takes_append {first second : Split} {input : List Char}
    (takes : first.Takes input) (splitOf : second.Of first.rest) :
    (second.after first.text).Takes input := by
  obtain ⟨nonempty, equality⟩ := takes
  refine ⟨by simp [Split.after, nonempty], ?_⟩
  have joined := Split.of_after first.text splitOf
  rwa [equality] at joined

theorem takes_of_magnitude? {operand negative : Bool} {input : List Char}
    {scanned : Scanned Numeral} (found : magnitude? operand negative input = some scanned) :
    scanned.toSplit.Takes input := by
  have finished : ∀ (split : Split) (whole : List Char) (fraction : Option (List Char)),
      split.Takes input →
      (match suffix? split.rest with
        | some suffix =>
          (⟨suffix.toSplit.after split.text, ⟨negative, whole, fraction, some suffix.value⟩⟩ :
            Scanned Numeral)
        | none => ⟨split, ⟨negative, whole, fraction, none⟩⟩).toSplit.Takes input := by
    intro split whole fraction takes
    cases suffixFound : suffix? split.rest with
    | none => exact takes
    | some suffix => exact takes_append takes (takes_of_suffix? suffixFound).2
  unfold magnitude? at found
  split at found
  next whole wholeFound =>
    split at found
    next fraction fractionFound =>
      simp only [Option.some.injEq] at found
      subst found
      exact finished _ _ _
        (takes_append (takes_of_digitRun? wholeFound) (takes_of_fraction? fractionFound).2)
    next =>
      simp only [Option.some.injEq] at found
      subst found
      exact finished _ _ _ (takes_of_digitRun? wholeFound)
  next =>
    split at found
    · obtain ⟨fraction, fractionFound, rfl⟩ := Option.map_eq_some_iff.mp found
      exact finished _ _ _ (takes_of_fraction? fractionFound)
    · simp at found

theorem takes_of_numeral? {operand : Bool} {input : List Char} {scanned : Scanned Numeral}
    (found : numeral? operand input = some scanned) : scanned.toSplit.Takes input := by
  unfold numeral? at found
  split at found
  next sign signFound =>
    obtain ⟨number, numberFound, rfl⟩ := Option.map_eq_some_iff.mp found
    have signTakes : sign.toSplit.Takes input := by
      cases operand with
      | true => exact takes_of_sign? signFound
      | false => simp at signFound
    exact takes_append signTakes (takes_of_magnitude? numberFound).2
  next => exact takes_of_magnitude? found

end Offside.Scan
