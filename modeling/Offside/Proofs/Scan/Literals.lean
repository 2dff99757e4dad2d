import Offside.Lexer.State
import Offside.Proofs.Scan.Digits

/-!
Literals as they are written from their values: integers in decimal digits, and characters as
escapes of their code points.
-/

namespace Offside

namespace Scan

/-- Text that no token goes on into. -/
def SetOff (follow : List Char) : Prop :=
  ∃ c rest, follow = c :: rest ∧ (c = ' ' ∨ c = '\n')

theorem setOff_space (rest : List Char) : SetOff (' ' :: rest) :=
  ⟨' ', rest, rfl, Or.inl rfl⟩

theorem setOff_lineFeed (rest : List Char) : SetOff ('\n' :: rest) :=
  ⟨'\n', rest, rfl, Or.inr rfl⟩

/-! ## Integers -/

theorem sign?_eq_none {c : Char} {rest : List Char} (noSign : c ≠ '+' ∧ c ≠ '-') :
    sign? (c :: rest) = none := by
  cases rest with
  | nil => rfl
  | cons digit rest => simp [sign?, noSign.1, noSign.2]

theorem fraction?_eq_none {c : Char} {rest : List Char} (noPoint : c ≠ '.') :
    fraction? (c :: rest) = none := by
  unfold fraction?
  split
  next equality =>
    injection equality with same _
    exact absurd same noPoint
  next => rfl

/-- Text that an integer does not go on into: digits and separators end, and there is neither a
fraction nor a suffix that would make it a floating-point literal. -/
structure EndsInteger (follow : List Char) : Prop where
  noDigit : ∀ c ∈ follow.head?, Text.isDigit c = false ∧ c ≠ '_'
  noFraction : ∀ digit rest, follow = '.' :: digit :: rest → Text.isDigit digit = false
  noSuffix : ∀ letter rest, follow = letter :: rest → letter ∈ ['f', 'F', 'd', 'D'] →
    rest.head?.any Text.isNameContinue = true

theorem endsInteger_nil : EndsInteger [] :=
  ⟨fun _ isHead => absurd isHead.symm (Option.some_ne_none _),
    fun _ _ isNil => absurd isNil.symm (List.cons_ne_nil _ _),
    fun _ _ isNil => absurd isNil.symm (List.cons_ne_nil _ _)⟩

theorem SetOff.endsInteger {follow : List Char} (setOff : SetOff follow) : EndsInteger follow := by
  obtain ⟨c, rest, rfl, blank⟩ := setOff
  refine ⟨fun other isHead => ?_, fun digit others isPoint => ?_, fun letter others isLetter inList => ?_⟩
  · obtain rfl := Option.some.inj isHead
    rcases blank with rfl | rfl
    · decide
    · decide
  · obtain rfl := List.head_eq_of_cons_eq isPoint
    exact absurd blank (by decide)
  · obtain rfl := List.head_eq_of_cons_eq isLetter
    rcases blank with rfl | rfl
    · exact absurd inList (by decide)
    · exact absurd inList (by decide)

namespace EndsInteger

variable {follow : List Char}

theorem fraction? (ends : EndsInteger follow) : fraction? follow = none := by
  unfold Scan.fraction?
  split
  next rest =>
    rw [Option.map_eq_none_iff]
    cases rest with
    | nil => rfl
    | cons digit rest => rw [digitRun?, ends.noFraction digit rest rfl, if_neg Bool.false_ne_true]
  next => rfl

theorem suffix? (ends : EndsInteger follow) : suffix? follow = none := by
  cases follow with
  | nil => rfl
  | cons letter rest =>
    rw [Scan.suffix?]
    split
    next => rfl
    next noName =>
      rw [Option.map_eq_none_iff]
      have noLetter : letter ∉ ['f', 'F', 'd', 'D'] := fun isLetter =>
        noName (ends.noSuffix letter rest rfl isLetter)
      simp only [List.mem_cons, List.not_mem_nil, or_false, not_or] at noLetter
      simp [FloatSuffix.ofChar?, noLetter]

variable {first : Char} {others : List Char}

theorem digitRun? (ends : EndsInteger follow) (isDigit : Text.isDigit first = true)
    (inRun : ∀ c ∈ others, Text.isDigit c = true ∨ c = '_') :
    digitRun? (first :: (others ++ follow)) = some ⟨first :: others, follow⟩ := by
  have passes : ∀ c ∈ others, (Text.isDigit c || decide (c = '_')) = true := by
    intro c member
    simpa using inRun c member
  have stops : follow.head?.any (fun c => Text.isDigit c || c = '_') = false := by
    cases follow with
    | nil => rfl
    | cons c rest =>
      obtain ⟨noDigit, noSeparator⟩ := ends.noDigit c rfl
      simp [noDigit, noSeparator]
  rw [Scan.digitRun?, if_pos isDigit, run_append passes stops]
  rfl

/-- A run of digits and separators is an integer, whatever sign stands before it. -/
theorem magnitude? (ends : EndsInteger follow) (operand negative : Bool)
    (isDigit : Text.isDigit first = true)
    (inRun : ∀ c ∈ others, Text.isDigit c = true ∨ c = '_') :
    magnitude? operand negative (first :: (others ++ follow)) =
      some ⟨⟨first :: others, follow⟩, ⟨negative, first :: others, none, none⟩⟩ := by
  rw [Scan.magnitude?, ends.digitRun? isDigit inRun]
  simp only [ends.fraction?, ends.suffix?]

end EndsInteger

theorem noSign_of_isDigit {c : Char} (isDigit : Text.isDigit c = true) : c ≠ '+' ∧ c ≠ '-' := by
  constructor
  · rintro rfl
    exact absurd isDigit (by decide)
  · rintro rfl
    exact absurd isDigit (by decide)

/-- An integer without a sign, wherever it stands. -/
theorem numeral?_unsigned (operand : Bool) {first : Char} {others follow : List Char}
    (isDigit : Text.isDigit first = true)
    (inRun : ∀ c ∈ others, Text.isDigit c = true ∨ c = '_') (ends : EndsInteger follow) :
    numeral? operand (first :: (others ++ follow)) =
      some ⟨⟨first :: others, follow⟩, ⟨false, first :: others, none, none⟩⟩ := by
  have unsigned : (if operand = true then sign? (first :: (others ++ follow)) else none) = none := by
    rw [sign?_eq_none (noSign_of_isDigit isDigit)]
    exact ite_self none
  rw [numeral?, unsigned]
  exact ends.magnitude? operand false isDigit inRun

/-- An integer in digits, wherever it stands. -/
theorem numeral?_digits (operand : Bool) (digits : List Char) {follow : List Char}
    (nonempty : digits ≠ []) (all : ∀ c ∈ digits, Text.isDigit c = true) (setOff : SetOff follow) :
    numeral? operand (digits ++ follow) =
      some ⟨⟨digits, follow⟩, ⟨false, digits, none, none⟩⟩ := by
  obtain ⟨first, others, rfl⟩ := List.exists_cons_of_ne_nil nonempty
  obtain ⟨isDigit, inRun⟩ := List.forall_mem_cons.mp all
  exact numeral?_unsigned operand isDigit (fun c member => Or.inl (inRun c member)) setOff.endsInteger

theorem hasLooseSeparator_eq_false {run : List Char} (noSeparator : ∀ c ∈ run, c ≠ '_') :
    Numeral.hasLooseSeparator run = false := by
  fun_induction Numeral.hasLooseSeparator run with
  | case1 => rfl
  | case2 => exact absurd rfl (noSeparator '_' List.mem_cons_self)
  | case3 => exact absurd rfl (noSeparator '_' List.mem_cons_self)
  | case4 c rest _ _ inductionHypothesis =>
    exact inductionHypothesis fun other member =>
      noSeparator other (List.mem_cons_of_mem c member)

theorem digits_toDigits (number : Nat) :
    Numeral.digits (Nat.toDigits 10 number) = Nat.toDigits 10 number := by
  rw [Numeral.digits, List.filter_eq_self]
  intro c member
  have digit := Text.isDigit_of_mem_toDigits member
  simp only [ne_eq, decide_not, Bool.not_eq_eq_eq_not, Bool.not_true, decide_eq_false_iff_not]
  rintro rfl
  exact absurd digit (by decide)

theorem spellingFault?_toDigits (negative : Bool) (number : Nat) :
    (⟨negative, Nat.toDigits 10 number, none, none⟩ : Numeral).spellingFault? = none := by
  have digits := digits_toDigits number
  have noSeparator : Numeral.hasLooseSeparator (Nat.toDigits 10 number) = false :=
    hasLooseSeparator_eq_false fun c member same =>
      Nat.underscore_not_in_toDigits (same ▸ member)
  have noLeadingZero : (1 < (Nat.toDigits 10 number).length) →
      (Nat.toDigits 10 number).head? ≠ some '0' := by
    intro long
    apply Text.head?_toDigits
    apply Nat.pos_of_ne_zero
    rintro rfl
    exact absurd long (by decide)
  simp only [Numeral.spellingFault?, noSeparator, digits, Numeral.isFloat]
  by_cases long : 1 < (Nat.toDigits 10 number).length
  · simp [noLeadingZero long]
  · simp [long]

/-- The digits of an integer in range evaluate to it, with a minus to its negative. -/
theorem evaluate_signed (negative : Bool) {number : Nat}
    (fits : Numeral.inRange (if negative then -(number : Int) else number) = true) :
    (⟨negative, Nat.toDigits 10 number, none, none⟩ : Numeral).evaluate =
      (.integer (if negative then -(number : Int) else number), none) := by
  have value : (⟨negative, Nat.toDigits 10 number, none, none⟩ : Numeral).integer =
      if negative then -(number : Int) else number := by
    have spelled : Text.numberOf 10 (Nat.toDigits 10 number) = number :=
      Text.numberOf_toDigits (by decide) (by decide) number
    simp only [Numeral.integer, digits_toDigits, spelled]
  rw [Numeral.evaluate, value, spellingFault?_toDigits, fits]
  rfl

theorem evaluate_toDigits {number : Nat} (inRange : number ≤ 9223372036854775807) :
    (⟨false, Nat.toDigits 10 number, none, none⟩ : Numeral).evaluate =
      (.integer number, none) := by
  refine evaluate_signed false ?_
  simp only [Numeral.inRange, Bool.false_eq_true, if_false, Bool.and_eq_true, decide_eq_true_eq]
  omega

/-! ## Escapes -/

/-- A character as an escape of its code point. -/
def escaped (c : Char) : List Char :=
  '\\' :: 'u' :: '\x7b' :: (Nat.toDigits 16 c.toNat ++ ['\x7d'])

theorem length_toDigits_le (c : Char) : (Nat.toDigits 16 c.toNat).length ≤ 6 := by
  rw [Nat.length_toDigits_le_iff (by decide) (by decide)]
  have valid := c.valid
  have bound : c.toNat < 1114112 := by
    rcases valid with low | high
    · change c.val.toNat < 1114112
      have := low
      omega
    · exact high.2
  omega

theorem charOfCode?_toNat (c : Char) : charOfCode? c.toNat = some c := by
  have valid : c.toNat.isValidChar := c.valid
  rw [charOfCode?, if_pos valid, Char.ofNat_toNat]

/-- The digits of a code point between curly brackets, whatever follows. -/
theorem bracedChar?_digits {digits : List Char} {c : Char} (follow : List Char)
    (hexadecimal : ∀ digit ∈ digits, Text.isHexDigit digit = true) (nonempty : digits ≠ [])
    (count : digits.length ≤ 6) (value : Text.numberOf 16 digits = c.toNat) :
    bracedChar? ('\x7b' :: (digits ++ '\x7d' :: follow)) =
      some ⟨⟨'\x7b' :: (digits ++ ['\x7d']), follow⟩, c⟩ := by
  have taken : upTo Text.isHexDigit 6 (digits ++ '\x7d' :: follow) = ⟨digits, '\x7d' :: follow⟩ :=
    upTo_append hexadecimal count rfl
  simp only [bracedChar?, taken, value, charOfCode?_toNat, if_neg nonempty, Option.map_some,
    List.cons_append]

theorem bracedChar?_escaped (c : Char) (follow : List Char) :
    bracedChar? ('\x7b' :: (Nat.toDigits 16 c.toNat ++ '\x7d' :: follow)) =
      some ⟨⟨'\x7b' :: (Nat.toDigits 16 c.toNat ++ ['\x7d']), follow⟩, c⟩ :=
  bracedChar?_digits follow (fun _ => Text.isHexDigit_of_mem_toDigits) Nat.toDigits_ne_nil
    (length_toDigits_le c) (Text.numberOf_toDigits (by decide) (by decide) c.toNat)

/-- What a backslash starts when the code point of a character follows. -/
theorem escape_escaped (c : Char) (follow : List Char) :
    escape ('u' :: '\x7b' :: (Nat.toDigits 16 c.toNat ++ '\x7d' :: follow)) =
      ⟨⟨escaped c, follow⟩, .char c⟩ := by
  rw [escape]
  simp only [lineBreak?, bracedChar?_escaped, Option.some_or]
  rfl

/-- A character as an escape, as a piece of a literal. -/
def escapedPiece (c : Char) : Spelled :=
  ⟨escaped c, .char c⟩

theorem escaped_append (c : Char) (follow : List Char) :
    escaped c ++ follow =
      '\\' :: 'u' :: '\x7b' :: (Nat.toDigits 16 c.toNat ++ '\x7d' :: follow) := by
  rw [escaped, List.cons_append, List.cons_append, List.cons_append, List.append_assoc]
  rfl

/-- Characters as escapes are the pieces of a string up to where it ends. -/
theorem stringBody_escaped (text : List Char) {follow : List Char}
    (stops : stringPiece? follow = none) :
    stringBody (text.flatMap escaped ++ follow) =
      ⟨⟨text.flatMap escaped, follow⟩, text.map escapedPiece⟩ := by
  induction text with
  | nil =>
    rw [List.flatMap_nil, List.nil_append, stringBody]
    split
    next => rfl
    next found =>
      rw [stops] at found
      contradiction
  | cons c text inductionHypothesis =>
    have first : stringPiece? (escaped c ++ (text.flatMap escaped ++ follow)) =
        some ⟨⟨escaped c, text.flatMap escaped ++ follow⟩, .char c⟩ := by
      rw [escaped_append, stringPiece?, if_pos rfl, escape_escaped]
    rw [List.flatMap_cons, List.append_assoc, stringBody]
    split
    next missing =>
      rw [first] at missing
      contradiction
    next piece found =>
      rw [first] at found
      obtain rfl := Option.some.inj found
      dsimp only
      rw [inductionHypothesis]
      rfl

/-- One character as an escape, up to the quote that ends its literal. -/
theorem charBody_escaped (c : Char) (follow : List Char) :
    charBody (escaped c ++ '\'' :: follow) = ⟨⟨escaped c, '\'' :: follow⟩, [escapedPiece c]⟩ := by
  have first : charPiece? (escaped c ++ '\'' :: follow) =
      some ⟨⟨escaped c, '\'' :: follow⟩, .char c⟩ := by
    rw [escaped_append, charPiece?, if_pos rfl, escape_escaped]
  have last : charBody ('\'' :: follow) = ⟨.nothing ('\'' :: follow), []⟩ := by
    rw [charBody]
    split
    next => rfl
    next found => exact absurd found.symm (Option.some_ne_none _)
  rw [charBody]
  split
  next missing =>
    rw [first] at missing
    contradiction
  next piece found =>
    rw [first] at found
    obtain rfl := Option.some.inj found
    dsimp only
    rw [last]
    simp [Split.after, Split.nothing, escapedPiece]

end Scan

theorem LexState.decode_escaped (position : Position) (text : List Char) :
    LexState.decode position (text.map Scan.escapedPiece) = (text, []) := by
  induction text generalizing position with
  | nil => rfl
  | cons c text inductionHypothesis =>
    rw [List.map_cons, Scan.escapedPiece, LexState.decode, inductionHypothesis]

end Offside
