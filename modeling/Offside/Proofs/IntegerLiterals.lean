import Mathlib.Data.Nat.Digits.Defs
import Offside.Proofs.EscapedLiterals

/-!
Integers as they are written. What an integer is worth is the value of its digits by their places,
and what can be wrong with it is said of its text alone. The value that a literal is given is that
value if it is one of 64 bits and zero if it is not, and nothing is found wrong with it exactly if
nothing is.
-/

namespace Offside

/-- The integers of 64 bits. -/
def FitsWord (value : Int) : Prop :=
  -(Nat.pow 2 63 : Int) ≤ value ∧ value ≤ (Nat.pow 2 63 : Int) - 1

/-- An integer as it is written: a sign if there is one, and a digit with digits and separators
behind it. -/
structure IntegerText where
  sign : Option Char
  first : Char
  others : List Char
  isSign : ∀ c ∈ sign, c = '+' ∨ c = '-'
  isDigit : Text.isDigit first = true
  inRun : ∀ c ∈ others, Text.isDigit c = true ∨ c = '_'

namespace IntegerText

variable (written : IntegerText)

def run : List Char :=
  written.first :: written.others

def text : List Char :=
  written.sign.toList ++ written.run

def digits : List Char :=
  written.run.filter Text.isDigit

/-- The value of the digits by their places, the last digit being that of the units. -/
def magnitude : Nat :=
  Nat.ofDigits 10 (written.digits.map fun digit => digit.toNat - '0'.toNat).reverse

def value : Int :=
  if written.sign = some '-' then -written.magnitude else written.magnitude

/-- Every separator stands alone between two digits. -/
def Separated : Prop :=
  ∀ before after, written.run = before ++ '_' :: after →
    (∃ left digit, before = left ++ [digit] ∧ Text.isDigit digit = true) ∧
      ∃ digit right, after = digit :: right ∧ Text.isDigit digit = true

/-- Nothing is wrong with the integer. -/
structure WellFormed : Prop where
  separated : written.Separated
  /-- Only a single digit may be a leading zero. -/
  noLeadingZero : written.digits.head? = some '0' → written.digits.length = 1
  fits : FitsWord written.value

/-- The literal that is scanned. -/
def numeral : Scan.Numeral :=
  ⟨written.sign = some '-', written.run, none, none⟩

/-! ## Its value -/

theorem run_inRun : ∀ c ∈ written.run, Text.isDigit c = true ∨ c = '_' :=
  List.forall_mem_cons.mpr ⟨Or.inl written.isDigit, written.inRun⟩

/-- A run has nothing but its digits when its separators are left out. -/
theorem digits_run : Scan.Numeral.digits written.run = written.digits := by
  refine List.filter_congr fun c member => ?_
  rcases written.run_inRun c member with isDigit | rfl
  · rw [isDigit]
    refine decide_eq_true fun isSeparator => ?_
    rw [isSeparator] at isDigit
    exact absurd isDigit (by decide)
  · rfl

theorem numberOf_eq_ofDigits {digits : List Char}
    (all : ∀ c ∈ digits, Text.isDigit c = true) :
    Text.numberOf 10 digits =
      Nat.ofDigits 10 (digits.map fun digit => digit.toNat - '0'.toNat).reverse := by
  induction digits using List.reverseRecOn with
  | nil => rfl
  | append_singleton digits last inductionHypothesis =>
    have isLast : Text.isDigit last = true := all last (List.mem_append_right _ List.mem_cons_self)
    have worth : Text.digitValue last = last.toNat - '0'.toNat := by
      rw [Text.digitValue, if_pos isLast]
    have earlier := inductionHypothesis fun c member => all c (List.mem_append_left _ member)
    rw [Text.numberOf_append, earlier, worth, List.map_append, List.map_singleton,
      List.reverse_append, List.reverse_singleton, List.singleton_append, Nat.ofDigits_cons,
      Nat.add_comm, Nat.mul_comm]

theorem integer_numeral : written.numeral.integer = written.value := by
  have all : ∀ c ∈ written.digits, Text.isDigit c = true := fun c member =>
    List.of_mem_filter member
  have spelled : Text.numberOf 10 (Scan.Numeral.digits written.run) = written.magnitude := by
    rw [digits_run, numberOf_eq_ofDigits all]
    rfl
  simp only [Scan.Numeral.integer, numeral, spelled, value, decide_eq_true_eq]

theorem inRange_iff (value : Int) : Scan.Numeral.inRange value = true ↔ FitsWord value := by
  simp only [Scan.Numeral.inRange, FitsWord, Bool.and_eq_true, decide_eq_true_eq]
  norm_num

/-! ## What is wrong with it -/

theorem hasLooseSeparator_eq_false_iff {run : List Char}
    (inRun : ∀ c ∈ run, Text.isDigit c = true ∨ c = '_') :
    Scan.Numeral.hasLooseSeparator run = false ↔
      ∀ before after, run = before ++ '_' :: after →
        ∃ digit right, after = digit :: right ∧ Text.isDigit digit = true := by
  fun_induction Scan.Numeral.hasLooseSeparator run with
  | case1 => exact ⟨fun _ before after isNil => absurd isNil (by simp), fun _ => rfl⟩
  | case2 =>
    refine ⟨fun loose => absurd loose Bool.noConfusion, fun followed => ?_⟩
    obtain ⟨_, _, isNil, _⟩ := followed [] [] rfl
    exact absurd isNil.symm (List.cons_ne_nil _ _)
  | case3 rest =>
    refine ⟨fun loose => absurd loose Bool.noConfusion, fun followed => ?_⟩
    obtain ⟨digit, right, isCons, isDigit⟩ := followed [] ('_' :: rest) rfl
    rw [← List.head_eq_of_cons_eq isCons] at isDigit
    exact absurd isDigit (by decide)
  | case4 c rest notAlone notTwice inductionHypothesis =>
    have later := inductionHypothesis (List.forall_mem_cons.mp inRun).2
    refine later.trans ⟨fun followed before after split => ?_, fun followed before after split => ?_⟩
    · cases before with
      | nil =>
        obtain ⟨rfl, rfl⟩ := List.cons.inj split
        cases rest with
        | nil => exact absurd rfl (notAlone rfl)
        | cons digit right =>
          refine ⟨digit, right, rfl, (inRun digit (by simp)).resolve_right fun isSeparator => ?_⟩
          exact notTwice right rfl (isSeparator ▸ rfl)
      | cons other before => exact followed before after (List.cons.inj split).2
    · exact followed (c :: before) after (congrArg (c :: ·) split)

/-- What stands before a separator is a digit if what stands behind each separator is one. -/
theorem hasLooseSeparator_run_iff :
    Scan.Numeral.hasLooseSeparator written.run = false ↔ written.Separated := by
  rw [hasLooseSeparator_eq_false_iff written.run_inRun]
  refine ⟨fun followed before after split => ⟨?_, followed before after split⟩,
    fun separated before after split => (separated before after split).2⟩
  rcases List.eq_nil_or_concat' before with rfl | ⟨left, c, rfl⟩
  · have isDigit := written.isDigit
    rw [List.head_eq_of_cons_eq split] at isDigit
    exact absurd isDigit (by decide)
  · refine ⟨left, c, rfl, ?_⟩
    have member : c ∈ written.run := by
      rw [split]
      simp
    refine (written.run_inRun c member).resolve_right fun isSeparator => ?_
    rw [isSeparator, List.append_assoc] at split
    obtain ⟨digit, right, isCons, isDigit⟩ := followed left ('_' :: after) split
    rw [← List.head_eq_of_cons_eq isCons] at isDigit
    exact absurd isDigit (by decide)

theorem spellingFault?_numeral_iff :
    written.numeral.spellingFault? = none ↔
      written.Separated ∧ (written.digits.head? = some '0' → written.digits.length = 1) := by
  have nonempty : 0 < written.digits.length :=
    List.length_pos_of_mem (List.mem_filter.mpr ⟨List.mem_cons_self, written.isDigit⟩)
  have single : ¬ 1 < written.digits.length ↔ written.digits.length = 1 := by omega
  rw [← hasLooseSeparator_run_iff, ← single]
  simp only [Scan.Numeral.spellingFault?, numeral, Scan.Numeral.isFloat, digits_run]
  cases Scan.Numeral.hasLooseSeparator written.run with
  | true => simp
  | false =>
    by_cases long : 1 < written.digits.length
    · simp [long]
    · simp [long]

/-- The value decides the kind, and together with the spelling whether something is wrong. -/
theorem evaluate_numeral :
    (written.numeral.evaluate.2 = none ↔ written.WellFormed) ∧
      (FitsWord written.value → written.numeral.evaluate.1 = .integer written.value) ∧
      (¬ FitsWord written.value → written.numeral.evaluate.1 = .integer 0) := by
  have noFloat : written.numeral.isFloat = false := rfl
  rw [Scan.Numeral.evaluate, noFloat, if_neg Bool.false_ne_true, integer_numeral]
  by_cases fits : FitsWord written.value
  · rw [if_pos ((inRange_iff _).mpr fits)]
    refine ⟨written.spellingFault?_numeral_iff.trans ?_, fun _ => rfl, fun tooLarge => absurd fits tooLarge⟩
    exact ⟨fun sound => ⟨sound.1, sound.2, fits⟩,
      fun wellFormed => ⟨wellFormed.separated, wellFormed.noLeadingZero⟩⟩
  · rw [if_neg fun inRange => fits ((inRange_iff _).mp inRange)]
    refine ⟨⟨fun isNone => absurd isNone (Option.some_ne_none _), fun wellFormed => ?_⟩,
      fun inWord => absurd inWord fits, fun _ => rfl⟩
    exact absurd wellFormed.fits fits

/-! ## Scanning it -/

variable {written} {follow : List Char}

/-- Where an operand may start, a sign before an integer belongs to it. -/
theorem numeral?_text (ends : Scan.EndsInteger follow) :
    Scan.numeral? true (written.text ++ follow) =
      some ⟨⟨written.text, follow⟩, written.numeral⟩ := by
  obtain ⟨sign, first, others, isSign, isDigit, inRun⟩ := written
  cases sign with
  | none => exact Scan.numeral?_unsigned true isDigit inRun ends
  | some c =>
    have signed : Scan.sign? (c :: first :: (others ++ follow)) =
        some ⟨⟨[c], first :: (others ++ follow)⟩, c = '-'⟩ := by
      rcases isSign c rfl with rfl | rfl
      · simp [Scan.sign?, isDigit]
      · simp [Scan.sign?, isDigit]
    change Scan.numeral? true (c :: first :: (others ++ follow)) = _
    rw [Scan.numeral?, if_pos rfl, signed]
    simp only [ends.magnitude? true _ isDigit inRun, Option.map_some]
    simp [Scan.Split.after, text, run, numeral]

/-- The first character of an integer is a sign or a digit, so that it starts no other token. -/
theorem exists_cons_text (written : IntegerText) (others : List Char)
    (apart : ∀ c ∈ others, Text.isDigit c = false ∧ c ≠ '+' ∧ c ≠ '-') :
    ∃ c rest, written.text = c :: rest ∧ c ∉ others := by
  obtain ⟨sign, first, run, isSign, isDigit, inRun⟩ := written
  cases sign with
  | none =>
    refine ⟨first, run, rfl, fun member => ?_⟩
    exact absurd ((apart first member).1.symm.trans isDigit) Bool.false_ne_true
  | some c =>
    refine ⟨c, first :: run, rfl, fun member => ?_⟩
    rcases isSign c rfl with rfl | rfl
    · exact (apart _ member).2.1 rfl
    · exact (apart _ member).2.2 rfl

theorem opens_text (written : IntegerText) : Scan.Opens written.text := by
  obtain ⟨c, rest, text, apart⟩ := written.exists_cons_text
    ['/', '\\', ' ', '\t', '\x0c', '\r', '\n', '\ufeff'] (by simp [Text.isDigit])
  rw [text]
  exact Scan.opens_of_first apart

/-- At the start of a text an integer is one token, sign and all. -/
theorem flows_text {state : LexState} (first : state.lastKind = none)
    (rest : state.rest = written.text) {kind : Kind}
    (evaluates : written.numeral.evaluate = (kind, none)) :
    ∃ position lastKind, LexState.Flows state.codeToken [⟨kind, String.ofList written.text⟩]
      { state with rest := [], position, lastKind } := by
  obtain ⟨c, others, text, apart⟩ := written.exists_cons_text ['"', '\'', '/', '$']
    (by simp [Text.isDigit])
  simp only [List.mem_cons, List.not_mem_nil, or_false, not_or] at apart
  have operand : state.atOperand = true := by
    rw [LexState.atOperand, first]
    rfl
  have found := @numeral?_text written [] Scan.endsInteger_nil
  rw [List.append_nil, text] at found
  have token : state.codeToken = state.yield kind ⟨c :: others, []⟩ [] := by
    rw [LexState.codeToken_eq_plainToken (rest.trans text) ⟨apart.1, apart.2.1⟩
      (fun slash => absurd slash apart.2.2.1) (fun dollar => absurd dollar apart.2.2.2)]
    unfold LexState.plainToken
    simp only [operand, found, evaluates, Option.toList_none, List.map_nil]
  rw [token, text]
  exact ⟨_, _, LexState.flows_token _ _⟩

/-! ## Decimal texts -/

theorem exists_toDigits {sign : Option Char} (isSign : ∀ c ∈ sign, c = '+' ∨ c = '-')
    (number : Nat) : ∃ written : IntegerText, written.text = sign.toList ++ Nat.toDigits 10 number ∧
      written.numeral = ⟨sign = some '-', Nat.toDigits 10 number, none, none⟩ := by
  have all : ∀ c ∈ Nat.toDigits 10 number, Text.isDigit c = true :=
    fun _ => Text.isDigit_of_mem_toDigits
  obtain ⟨first, others, digits⟩ := List.exists_cons_of_ne_nil (@Nat.toDigits_ne_nil number 10)
  rw [digits] at all ⊢
  obtain ⟨isDigit, inRun⟩ := List.forall_mem_cons.mp all
  exact ⟨⟨sign, first, others, isSign, isDigit, fun c member => Or.inl (inRun c member)⟩, rfl, rfl⟩

/-- The decimal text of a number is an integer as it is written. -/
theorem exists_toString (value : Int) : ∃ written : IntegerText,
    written.text = (toString value).toList ∧
      written.numeral = ⟨decide (value < 0), Nat.toDigits 10 value.natAbs, none, none⟩ := by
  cases value with
  | ofNat number =>
    obtain ⟨written, text, numeral⟩ :=
      @exists_toDigits none (fun _ isNone => absurd isNone.symm (Option.some_ne_none _)) number
    exact ⟨written, text.trans String.toList_ofList.symm, numeral⟩
  | negSucc number =>
    obtain ⟨written, text, numeral⟩ := @exists_toDigits (some '-')
      (fun _ isSome => Or.inr (Option.some.inj isSome).symm) number.succ
    refine ⟨written, text.trans ?_, ?_⟩
    · change _ = ("-" ++ String.ofList (Nat.toDigits 10 number.succ)).toList
      simp only [String.toList_append, String.toList_ofList]
      rfl
    · rw [numeral, decide_eq_true (Int.negSucc_lt_zero number)]
      rfl

end IntegerText

/-- The decimal text of an integer of 64 bits is a literal of it, and nothing is wrong with it. -/
theorem spells_toString (settings : Settings) {value : Int} (fits : FitsWord value) :
    Text.Spells settings (toString value).toList
      [⟨.integer value, toString value⟩, .layout .endOfInput] := by
  obtain ⟨written, text, numeral⟩ := IntegerText.exists_toString value
  have signed : (if decide (value < 0) then -(value.natAbs : Int) else value.natAbs) = value := by
    by_cases negative : value < 0
    · rw [decide_eq_true negative, if_pos rfl]
      omega
    · rw [decide_eq_false negative, if_neg Bool.false_ne_true]
      omega
  have inRange := (IntegerText.inRange_iff value).mpr fits
  have evaluates : written.numeral.evaluate = (.integer value, none) := by
    rw [numeral, Scan.evaluate_signed _ (by rwa [signed]), signed]
  obtain ⟨tokens, same, items⟩ := @LexState.items_of_flows settings.tabWidth _ false
    written.opens_text [⟨.integer value, String.ofList written.text⟩]
    fun code rest _ _ first => IntegerText.flows_text first rest evaluates
  have spells := Text.spells_of_items items
  rw [same, text, String.ofList_toList] at spells
  exact spells

/-- Integers are exact. However an integer is written, it is scanned whole, its kind is that of its
value or of zero if that is not one of 64 bits, and nothing is found wrong with it exactly if its
separators stand between digits, it has no leading zero and its value is one of 64 bits. The decimal
text of each integer of 64 bits is read as that integer. -/
theorem integers_exact (settings : Settings) :
    (∀ (written : IntegerText) (follow : List Char), Scan.EndsInteger follow →
      ∃ numeral, Scan.numeral? true (written.text ++ follow) =
          some ⟨⟨written.text, follow⟩, numeral⟩ ∧
        (numeral.evaluate.2 = none ↔ written.WellFormed) ∧
        (FitsWord written.value → numeral.evaluate.1 = .integer written.value) ∧
        (¬ FitsWord written.value → numeral.evaluate.1 = .integer 0)) ∧
    ∀ value : Int, FitsWord value →
      Text.Spells settings (toString value).toList
        [⟨.integer value, toString value⟩, .layout .endOfInput] := by
  refine ⟨fun written follow ends => ?_, fun value fits => spells_toString settings fits⟩
  exact ⟨written.numeral, IntegerText.numeral?_text ends, written.evaluate_numeral⟩

/-- The digits of the smallest integer of 64 bits, which fit behind a minus and not without it. -/
def IntegerText.extreme (sign : Option Char) (isSign : ∀ c ∈ sign, c = '+' ∨ c = '-') :
    IntegerText :=
  ⟨sign, '9', "_223_372_036_854_775_808".toList, isSign, rfl, by simp [Text.isDigit]⟩

/-- The smallest integer in front of a range, the same digits without the minus, and its decimal
text. -/
theorem integers_exact_extreme :
    let smallest := IntegerText.extreme (some '-') (by simp)
    let tooLarge := IntegerText.extreme none (by simp)
    Scan.EndsInteger "..5".toList ∧
      (FitsWord smallest.value ∧
        ∃ numeral, Scan.numeral? true (smallest.text ++ "..5".toList) =
            some ⟨⟨smallest.text, "..5".toList⟩, numeral⟩ ∧
          (numeral.evaluate.2 = none ↔ smallest.WellFormed) ∧
          numeral.evaluate.1 = .integer smallest.value) ∧
      (¬ FitsWord tooLarge.value ∧
        ∃ numeral, Scan.numeral? true (tooLarge.text ++ "..5".toList) =
            some ⟨⟨tooLarge.text, "..5".toList⟩, numeral⟩ ∧
          (numeral.evaluate.2 = none ↔ tooLarge.WellFormed) ∧
          numeral.evaluate.1 = .integer 0) ∧
      FitsWord (-9223372036854775808) ∧
      Text.Spells {} (toString (-9223372036854775808 : Int)).toList
        [⟨.integer (-9223372036854775808), toString (-9223372036854775808 : Int)⟩,
          .layout .endOfInput] := by
  intro smallest tooLarge
  have ends : Scan.EndsInteger "..5".toList :=
    ⟨by simp [Text.isDigit], fun digit rest isPoint => by
        rw [← List.head_eq_of_cons_eq (List.cons.inj isPoint).2]
        rfl,
      fun letter rest isPoint isLetter => by
        rw [← List.head_eq_of_cons_eq isPoint] at isLetter
        exact absurd isLetter (by decide)⟩
  have fits : FitsWord smallest.value := by unfold FitsWord; decide +kernel
  have outsideWord : ¬ FitsWord tooLarge.value := by unfold FitsWord; decide +kernel
  have least : FitsWord (-9223372036854775808) := by unfold FitsWord; decide
  obtain ⟨exact, back⟩ := integers_exact {}
  obtain ⟨numeral, found, fault, inWord, _⟩ := exact smallest _ ends
  obtain ⟨other, foundOther, faultOther, _, outside⟩ := exact tooLarge _ ends
  exact ⟨ends, ⟨fits, numeral, found, fault, inWord fits⟩,
    ⟨outsideWord, other, foundOther, faultOther, outside outsideWord⟩, least, back _ least⟩

end Offside
