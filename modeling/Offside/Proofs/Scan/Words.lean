import Offside.Proofs.Scan.Literals

/-!
Words and symbols that are set off from what follows them, and text that starts with code.
-/

namespace Offside

namespace Text

/-- A name: a character that may start one, and any that may continue it. -/
def isName : List Char → Bool
  | [] => false
  | c :: rest => isNameStart c && rest.all isNameContinue

theorem exists_cons_of_isName {name : List Char} (isName : isName name = true) :
    ∃ c rest, name = c :: rest ∧ isNameStart c = true ∧
      ∀ other ∈ rest, isNameContinue other = true := by
  cases name with
  | nil => exact nomatch isName
  | cons c rest =>
    obtain ⟨starts, continues⟩ := Bool.and_eq_true_iff.mp isName
    exact ⟨c, rest, rfl, starts, List.all_eq_true.mp continues⟩

theorem isNameStart_mark : isNameStart '\ufeff' = false := by
  decide +kernel

theorem isDigit_eq_false_of_isNameStart {c : Char} (starts : isNameStart c = true) :
    isDigit c = false := by
  cases digit : isDigit c with
  | false => rfl
  | true =>
    have range : '0' ≤ c ∧ c ≤ '9' := by simpa [isDigit] using digit
    have lower : 48 ≤ c.toNat := range.1
    have upper : c.toNat ≤ 57 := range.2
    have ascii : isAscii c = true := by
      simp only [isAscii, decide_eq_true_eq]
      omega
    rw [isNameStart, if_pos ascii] at starts
    simp only [isLetter, Bool.or_eq_true, Bool.and_eq_true, decide_eq_true_eq] at starts
    rcases starts with ((⟨low, _⟩ | ⟨low, _⟩) | rfl) | rfl
    · have : 97 ≤ c.toNat := low
      omega
    · have : 65 ≤ c.toNat := low
      omega
    · exact absurd upper (by decide)
    · exact absurd lower (by decide)

end Text

namespace Scan

/-- A character that no number starts with, unless a digit follows, starts none. -/
theorem numeral?_eq_none (operand : Bool) {c : Char} {rest : List Char}
    (noDigit : Text.isDigit c = false)
    (loose : c = '+' ∨ c = '-' ∨ c = '.' → rest.head?.any Text.isDigit = false) :
    numeral? operand (c :: rest) = none := by
  have noRun : digitRun? (c :: rest) = none := by
    rw [digitRun?, noDigit]
    rfl
  have noSign : sign? (c :: rest) = none := by
    cases rest with
    | nil => rfl
    | cons digit rest =>
      by_cases sign : c = '+' ∨ c = '-'
      · have noDigitAfter : Text.isDigit digit = false :=
          loose (sign.elim Or.inl fun minus => Or.inr (Or.inl minus))
        simp [sign?, noDigitAfter]
      · exact sign?_eq_none (not_or.mp sign)
  have noFraction : fraction? (c :: rest) = none := by
    by_cases point : c = '.'
    · have noDigitAfter := loose (Or.inr (Or.inr point))
      subst point
      cases rest with
      | nil => rfl
      | cons digit rest =>
        have fails : Text.isDigit digit = false := noDigitAfter
        simp [fraction?, digitRun?, fails]
    · exact fraction?_eq_none point
  have unsigned : (if operand = true then sign? (c :: rest) else none) = none := by
    rw [noSign]
    exact ite_self none
  rw [numeral?, unsigned]
  simp only [magnitude?, noRun, noFraction, Option.map_none]
  exact ite_self none

/-! ## Words -/

theorem name?_append {name follow : List Char} (isName : Text.isName name = true)
    (setOff : SetOff follow) : name? (name ++ follow) = some ⟨name, follow⟩ := by
  obtain ⟨c, rest, rfl, starts, continues⟩ := Text.exists_cons_of_isName isName
  have stops : follow.head?.any Text.isNameContinue = false := by
    obtain ⟨c, rest, rfl, rfl | rfl⟩ := setOff
    · rfl
    · rfl
  rw [List.cons_append, name?, if_pos starts, run_append continues stops]
  rfl

theorem word?_append {name follow : List Char} (isName : Text.isName name = true)
    (setOff : SetOff follow) :
    word? (name ++ follow) =
      some ⟨⟨name, follow⟩, Kind.ofWord (String.ofList name)⟩ := by
  rw [word?, name?_append isName setOff]
  rfl

/-! ## Symbols -/

/-- A symbol that is set off is the longest one. -/
theorem symbol?_append (symbol : Symbol) {follow : List Char} (setOff : SetOff follow) :
    symbol? (symbol.characters ++ follow) = some ⟨⟨symbol.characters, follow⟩, symbol⟩ := by
  obtain ⟨c, rest, rfl, rfl | rfl⟩ := setOff
  · cases symbol <;> rfl
  · cases symbol <;> rfl

theorem symbol?_rightCurly (follow : List Char) :
    symbol? ('\x7d' :: follow) = some ⟨⟨['\x7d'], follow⟩, .rightCurly⟩ := by
  simp [symbol?, Symbol.all, strip?, Symbol.characters, List.findSome?]

theorem numeral?_symbol (operand : Bool) (symbol : Symbol) {follow : List Char}
    (setOff : SetOff follow) : numeral? operand (symbol.characters ++ follow) = none := by
  obtain ⟨c, rest, rfl, rfl | rfl⟩ := setOff
  · cases symbol <;> exact numeral?_eq_none operand rfl fun _ => rfl
  · cases symbol <;> exact numeral?_eq_none operand rfl fun _ => rfl

theorem word?_symbol (symbol : Symbol) (follow : List Char) :
    word? (symbol.characters ++ follow) = none := by
  cases symbol <;> rfl

/-! ## Code -/

/-- The text starts with code: nothing is to be passed over, no line ends, and there is no byte
order mark. -/
structure Opens (input : List Char) : Prop where
  noGap : gap? input = none
  noBreak : lineBreak? input = none
  nonempty : input ≠ []
  noMark : input.head? ≠ some '\ufeff'

theorem opens_of_first {c : Char} {rest : List Char}
    (first : c ∉ ['/', '\\', ' ', '\t', '\x0c', '\r', '\n', '\ufeff']) : Opens (c :: rest) := by
  simp only [List.mem_cons, List.not_mem_nil, or_false, not_or] at first
  obtain ⟨noSlash, noBackslash, noSpace, noTab, noFeed, noReturn, noLineFeed, noMark⟩ := first
  refine ⟨?_, ?_, List.cons_ne_nil c rest, fun marked => noMark (Option.some.inj marked)⟩
  · unfold gap?
    split
    next equality => exact absurd (List.head_eq_of_cons_eq equality) noSlash
    next equality => exact absurd (List.head_eq_of_cons_eq equality) noSlash
    next equality => exact absurd (List.head_eq_of_cons_eq equality) noBackslash
    next equality =>
      obtain ⟨rfl, rfl⟩ := List.cons.inj equality
      simp [Text.isBlank, Text.isInlineBlank, noSpace, noTab, noFeed, noReturn]
    next => rfl
  · unfold lineBreak?
    split
    next equality => exact absurd (List.head_eq_of_cons_eq equality) noLineFeed
    next equality => exact absurd (List.head_eq_of_cons_eq equality) noReturn
    next => rfl

theorem trivia_of_opens {input : List Char} (opens : Opens input) :
    trivia input = .nothing input := by
  rw [trivia]
  split
  next => rfl
  next found =>
    rw [opens.noGap] at found
    contradiction

theorem trivia_space {input : List Char} (opens : Opens input) :
    trivia (' ' :: input) = ⟨[' '], input⟩ := by
  have space : gap? (' ' :: input) = some ⟨[' '], input⟩ := rfl
  rw [trivia]
  split
  next missing =>
    rw [space] at missing
    contradiction
  next gap found =>
    rw [space] at found
    obtain rfl := Option.some.inj found
    dsimp only
    rw [trivia_of_opens opens]
    rfl

theorem wrapped_space {input : List Char} (opens : Opens input) :
    wrapped (' ' :: input) = ⟨[' '], input⟩ := by
  have gap := trivia_space opens
  rw [wrapped, gap]
  dsimp only
  split
  next => rfl
  next found =>
    rw [opens.noBreak] at found
    contradiction

end Scan

end Offside
