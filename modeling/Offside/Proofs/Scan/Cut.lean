import Mathlib.Data.List.TakeWhile
import Offside.Proofs.Scan.Extend
import Offside.Proofs.Scan.Words

/-!
What a scanner took is taken again when other text follows it: behind numbers, words and symbols
any text that is set off or empty, behind a piece of a literal any text that starts as before.
-/

namespace Offside.Scan

/-- Nothing follows, or something set off. -/
def Ended (follow : List Char) : Prop :=
  ∀ c ∈ follow.head?, c = ' ' ∨ c = '\n'

theorem ended_nil : Ended [] :=
  fun _ isHead => absurd isHead.symm (Option.some_ne_none _)

theorem ended_cons {c : Char} {rest : List Char} (blank : c = ' ' ∨ c = '\n') : Ended (c :: rest) :=
  fun _ isHead => Option.some.inj isHead ▸ blank

theorem Ended.cases {follow : List Char} (ended : Ended follow) : follow = [] ∨ SetOff follow := by
  cases follow with
  | nil => exact Or.inl rfl
  | cons c rest => exact Or.inr ⟨c, rest, rfl, ended c rfl⟩

variable {input follow : List Char} {split : Split}

theorem run_cut (test : Char → Bool) (input : List Char) (stops : follow.head?.any test = false) :
    run test (input.takeWhile test ++ follow) = ⟨input.takeWhile test, follow⟩ :=
  run_append (fun _ member => List.mem_takeWhile_imp member) stops

/-! ## Numbers -/

/-- Digits do not go on, and no fraction starts. -/
def Stops (follow : List Char) : Prop :=
  ∀ c ∈ follow.head?, Text.isDigit c = false ∧ c ≠ '_' ∧ c ≠ '.'

theorem Stops.any (stops : Stops follow) :
    follow.head?.any (fun c => Text.isDigit c || c = '_') = false := by
  cases follow with
  | nil => rfl
  | cons c rest =>
    obtain ⟨noDigit, noSeparator, _⟩ := stops c rfl
    simp [noDigit, noSeparator]

theorem Ended.stops (ended : Ended follow) : Stops follow := by
  intro c isHead
  rcases ended c isHead with rfl | rfl
  · exact ⟨rfl, by decide, by decide⟩
  · exact ⟨rfl, by decide, by decide⟩

theorem digitRun?_cut (found : digitRun? input = some split)
    (stops : follow.head?.any (fun c => Text.isDigit c || c = '_') = false) :
    digitRun? (split.text ++ follow) = some ⟨split.text, follow⟩ ∧
      ∃ c rest, split.text = c :: rest ∧ Text.isDigit c = true := by
  unfold digitRun? at found
  split at found
  next c rest =>
    split at found
    next isDigit =>
      obtain rfl := Option.some.inj found
      refine ⟨?_, c, _, rfl, isDigit⟩
      have again := run_cut (fun c => Text.isDigit c || c = '_') rest stops
      change digitRun? (c :: (rest.takeWhile _ ++ follow)) = _
      rw [digitRun?, if_pos isDigit, again]
      rfl
    next => contradiction
  next => contradiction

theorem fraction?_cut {fraction : Scanned (List Char)} (found : fraction? input = some fraction)
    (stops : Stops follow) :
    fraction? (fraction.text ++ follow) = some ⟨⟨fraction.text, follow⟩, fraction.value⟩ ∧
      ∃ digits, fraction.text = '.' :: digits := by
  unfold fraction? at found
  split at found
  next rest =>
    obtain ⟨digits, isRun, rfl⟩ := Option.map_eq_some_iff.mp found
    refine ⟨?_, digits.text, rfl⟩
    change fraction? ('.' :: (digits.text ++ follow)) = _
    rw [fraction?, (digitRun?_cut isRun stops.any).1]
    rfl
  next => contradiction

theorem fraction?_of_stops (stops : Stops follow) : fraction? follow = none := by
  cases follow with
  | nil => rfl
  | cons c rest => exact fraction?_eq_none (stops c rfl).2.2

theorem suffix?_of_ended (ended : Ended follow) : suffix? follow = none := by
  cases follow with
  | nil => rfl
  | cons c rest =>
    have noLetter : FloatSuffix.ofChar? c = none := by
      rcases ended c rfl with rfl | rfl
      · rfl
      · rfl
    rw [suffix?, noLetter, Option.map_none]
    exact ite_self none

theorem suffix?_cut {suffix : Scanned FloatSuffix} (found : suffix? input = some suffix)
    (ended : Ended follow) :
    suffix? (suffix.text ++ follow) = some ⟨⟨suffix.text, follow⟩, suffix.value⟩ ∧
      Stops (suffix.text ++ follow) := by
  unfold suffix? at found
  split at found
  next c rest =>
    split at found
    next => contradiction
    next =>
      obtain ⟨value, isLetter, rfl⟩ := Option.map_eq_some_iff.mp found
      have noName : follow.head?.any Text.isNameContinue = false := by
        cases follow with
        | nil => rfl
        | cons other others =>
          rcases ended other rfl with rfl | rfl
          · rfl
          · rfl
      refine ⟨?_, fun other isHead => ?_⟩
      · change suffix? (c :: follow) = _
        rw [suffix?, noName, isLetter]
        rfl
      · obtain rfl := Option.some.inj isHead
        unfold FloatSuffix.ofChar? at isLetter
        split at isLetter
        next isFloat =>
          rcases isFloat with rfl | rfl
          · decide
          · decide
        next =>
          split at isLetter
          next isDouble =>
            rcases isDouble with rfl | rfl
            · decide
            · decide
          next => contradiction
  next => contradiction

/-- A number without its suffix, and the suffix if one follows. -/
def finish (negative : Bool) (whole : List Char) (fraction : Option (List Char)) (split : Split) :
    Scanned Numeral :=
  match suffix? split.rest with
  | some suffix =>
    ⟨suffix.toSplit.after split.text, ⟨negative, whole, fraction, some suffix.value⟩⟩
  | none => ⟨split, ⟨negative, whole, fraction, none⟩⟩

theorem magnitude?_eq (operand negative : Bool) (input : List Char) :
    magnitude? operand negative input =
      match digitRun? input with
      | some whole =>
        match fraction? whole.rest with
        | some fraction =>
          some (finish negative whole.text (some fraction.value) (fraction.toSplit.after whole.text))
        | none => some (finish negative whole.text none whole)
      | none =>
        if operand then
          (fraction? input).map fun fraction =>
            finish negative [] (some fraction.value) fraction.toSplit
        else none :=
  rfl

/-- What is behind a number without its suffix: the suffix or nothing, and then what follows. -/
theorem finish_cut (negative : Bool) (whole : List Char) (fraction : Option (List Char))
    (split : Split) (ended : Ended follow) : ∃ suffix,
      (finish negative whole fraction split).text = split.text ++ suffix ∧
      Stops (suffix ++ follow) ∧
      finish negative whole fraction ⟨split.text, suffix ++ follow⟩ =
        ⟨⟨(finish negative whole fraction split).text, follow⟩,
          (finish negative whole fraction split).value⟩ := by
  unfold finish
  cases found : suffix? split.rest with
  | none =>
    refine ⟨[], (List.append_nil _).symm, ended.stops, ?_⟩
    dsimp only [List.nil_append]
    rw [suffix?_of_ended ended]
  | some suffix =>
    obtain ⟨again, stops⟩ := suffix?_cut found ended
    refine ⟨suffix.text, rfl, stops, ?_⟩
    dsimp only
    rw [again]
    rfl

theorem magnitude?_cut {operand negative : Bool} {number : Scanned Numeral}
    (found : magnitude? operand negative input = some number) (ended : Ended follow) :
    magnitude? operand negative (number.text ++ follow) =
        some ⟨⟨number.text, follow⟩, number.value⟩ ∧
      ∃ c rest, number.text = c :: rest ∧ (Text.isDigit c = true ∨ c = '.') := by
  rw [magnitude?_eq] at found ⊢
  cases wholeFound : digitRun? input with
  | some whole =>
    rw [wholeFound] at found
    dsimp only at found
    cases fractionFound : fraction? whole.rest with
    | some fraction =>
      rw [fractionFound] at found
      obtain rfl := Option.some.inj found
      obtain ⟨suffix, text, stops, again⟩ := finish_cut negative whole.text (some fraction.value)
        (fraction.toSplit.after whole.text) ended
      obtain ⟨fractionAgain, digits, point⟩ := fraction?_cut fractionFound stops
      have wholeStops : (fraction.text ++ (suffix ++ follow)).head?.any
          (fun c => Text.isDigit c || c = '_') = false := by
        rw [point]
        rfl
      obtain ⟨wholeAgain, c, rest, first, isDigit⟩ := digitRun?_cut wholeFound wholeStops
      have spelled : (finish negative whole.text (some fraction.value)
          (fraction.toSplit.after whole.text)).text ++ follow =
          whole.text ++ (fraction.text ++ (suffix ++ follow)) := by
        rw [text, Split.after, List.append_assoc, List.append_assoc]
      refine ⟨?_, c, rest ++ (fraction.text ++ suffix), ?_, Or.inl isDigit⟩
      · rw [spelled, wholeAgain]
        dsimp only
        rw [fractionAgain]
        exact congrArg some again
      · rw [text, Split.after, first, List.append_assoc]
        rfl
    | none =>
      rw [fractionFound] at found
      obtain rfl := Option.some.inj found
      obtain ⟨suffix, text, stops, again⟩ := finish_cut negative whole.text none whole ended
      obtain ⟨wholeAgain, c, rest, first, isDigit⟩ := digitRun?_cut wholeFound stops.any
      refine ⟨?_, c, rest ++ suffix, ?_, Or.inl isDigit⟩
      · rw [text, List.append_assoc, wholeAgain]
        dsimp only
        rw [fraction?_of_stops stops]
        exact congrArg some (text ▸ again)
      · rw [text, first]
        rfl
  | none =>
    rw [wholeFound] at found
    dsimp only at found
    cases operand with
    | false => contradiction
    | true =>
      obtain ⟨fraction, fractionFound, rfl⟩ := Option.map_eq_some_iff.mp found
      obtain ⟨suffix, text, stops, again⟩ := finish_cut negative [] (some fraction.value)
        fraction.toSplit ended
      obtain ⟨fractionAgain, digits, point⟩ := fraction?_cut fractionFound stops
      have noRun : digitRun? (fraction.text ++ (suffix ++ follow)) = none := by
        rw [point]
        rfl
      refine ⟨?_, '.', digits ++ suffix, ?_, Or.inr rfl⟩
      · rw [text, List.append_assoc, noRun]
        dsimp only
        rw [if_pos rfl, fractionAgain, Option.map_some]
        exact congrArg some (text ▸ again)
      · rw [text, point]
        rfl

theorem sign?_cut {sign : Scanned Bool} (found : sign? input = some sign) :
    (∃ c rest, sign.rest = c :: rest ∧ Text.isDigit c = true) ∧
      (∃ mark, sign.text = [mark] ∧ (mark = '+' ∨ mark = '-')) ∧
      ∀ c rest, Text.isDigit c = true →
        sign? (sign.text ++ c :: rest) = some ⟨⟨sign.text, c :: rest⟩, sign.value⟩ := by
  unfold sign? at found
  split at found
  next mark digit others =>
    split at found
    next isSign =>
      obtain rfl := Option.some.inj found
      rw [Bool.and_eq_true, Bool.or_eq_true, decide_eq_true_eq, decide_eq_true_eq] at isSign
      refine ⟨⟨digit, others, rfl, isSign.2⟩, ⟨mark, rfl, isSign.1⟩, fun c rest isDigit => ?_⟩
      change sign? (mark :: c :: rest) = _
      rw [sign?, if_pos (by simp [isSign.1, isDigit])]
    next => contradiction
  next => contradiction

theorem numeral?_cut {operand : Bool} {number : Scanned Numeral}
    (found : numeral? operand input = some number) (ended : Ended follow) :
    numeral? operand (number.text ++ follow) = some ⟨⟨number.text, follow⟩, number.value⟩ ∧
      ∃ c rest, number.text = c :: rest ∧
        (Text.isDigit c = true ∨ c = '.' ∨ c = '+' ∨ c = '-') := by
  unfold numeral? at found
  split at found
  next sign signFound =>
    obtain ⟨inner, innerFound, rfl⟩ := Option.map_eq_some_iff.mp found
    cases operand with
    | false => contradiction
    | true =>
      rw [if_pos rfl] at signFound
      obtain ⟨again, c, rest, first, start⟩ := magnitude?_cut innerFound ended
      obtain ⟨⟨digit, others, signRest, isDigit⟩, ⟨mark, signText, isSign⟩, signAgain⟩ :=
        sign?_cut signFound
      have same : c = digit := by
        have whole := (takes_of_magnitude? innerFound).2
        rw [Split.Of, first, signRest] at whole
        exact (List.cons.inj whole).1
      refine ⟨?_, mark, inner.text, by rw [Split.after, signText]; rfl, Or.inr (Or.inr isSign)⟩
      have spelled : sign.text ++ inner.text ++ follow = sign.text ++ c :: (rest ++ follow) := by
        rw [List.append_assoc, first]
        rfl
      have remaining : c :: (rest ++ follow) = inner.text ++ follow := by rw [first]; rfl
      change numeral? true (sign.text ++ inner.text ++ follow) = _
      rw [spelled, numeral?, if_pos rfl, signAgain c _ (same ▸ isDigit)]
      dsimp only
      rw [remaining, again]
      rfl
  next =>
    obtain ⟨again, c, rest, first, start⟩ := magnitude?_cut found ended
    have noSign : (if operand = true then sign? (number.text ++ follow) else none) = none := by
      have isNone : sign? (number.text ++ follow) = none := by
        rw [first, List.cons_append]
        refine sign?_eq_none ⟨?_, ?_⟩
        · rintro rfl
          revert start
          decide
        · rintro rfl
          revert start
          decide
      rw [isNone]
      exact ite_self none
    refine ⟨?_, c, rest, first, start.imp_right Or.inl⟩
    rw [numeral?, noSign]
    exact again

/-! ## Words and symbols -/

theorem word?_cut {word : Scanned Kind} (found : word? input = some word) (ended : Ended follow) :
    word? (word.text ++ follow) = some ⟨⟨word.text, follow⟩, word.value⟩ ∧
      Text.isName word.text = true := by
  obtain ⟨split, isName, rfl⟩ := Option.map_eq_some_iff.mp found
  unfold name? at isName
  split at isName
  next c rest =>
    split at isName
    next starts =>
      obtain rfl := Option.some.inj isName
      have stops : follow.head?.any Text.isNameContinue = false := by
        rcases ended.cases with rfl | ⟨other, others, rfl, rfl | rfl⟩
        · rfl
        · rfl
        · rfl
      refine ⟨?_, ?_⟩
      · change word? (c :: (rest.takeWhile Text.isNameContinue ++ follow)) = _
        rw [word?, name?, if_pos starts, run_cut Text.isNameContinue rest stops]
        rfl
      · change (Text.isNameStart c && (rest.takeWhile Text.isNameContinue).all Text.isNameContinue) =
          true
        rw [starts, Bool.true_and]
        exact List.all_eq_true.mpr fun _ member => List.mem_takeWhile_imp member
    next => contradiction
  next => contradiction

theorem text_of_symbol? {symbol : Scanned Symbol} (found : symbol? input = some symbol) :
    symbol.text = symbol.value.characters := by
  obtain ⟨value, _, isSymbol⟩ := List.exists_of_findSome?_eq_some found
  obtain ⟨rest, _, rfl⟩ := Option.map_eq_some_iff.mp isSymbol
  rfl

/-- A symbol is the longest one that the text starts with if something set off follows it, or nothing,
or if it is a closing curly bracket, which no longer symbol starts with. -/
theorem symbol?_cut (symbol : Symbol) (alone : Ended follow ∨ symbol = .rightCurly) :
    symbol? (symbol.characters ++ follow) = some ⟨⟨symbol.characters, follow⟩, symbol⟩ := by
  rcases alone with ended | rfl
  · rcases ended.cases with rfl | setOff
    · cases symbol <;> rfl
    · exact symbol?_append symbol setOff
  · exact symbol?_rightCurly follow

theorem numeral?_of_symbol (operand : Bool) (symbol : Symbol)
    (alone : Ended follow ∨ symbol = .rightCurly) :
    numeral? operand (symbol.characters ++ follow) = none := by
  rcases alone with ended | rfl
  · rcases ended.cases with rfl | setOff
    · cases symbol <;> exact numeral?_eq_none operand rfl fun _ => rfl
    · exact numeral?_symbol operand symbol setOff
  · exact numeral?_eq_none operand rfl fun isSign => absurd isSign (by decide)

theorem numeral?_of_isName (operand : Bool) {name : List Char} (isName : Text.isName name = true) :
    numeral? operand (name ++ follow) = none := by
  obtain ⟨c, rest, rfl, starts, _⟩ := Text.exists_cons_of_isName isName
  refine numeral?_eq_none operand (Text.isDigit_eq_false_of_isNameStart starts) ?_
  rintro (rfl | rfl | rfl)
  · exact absurd starts (by decide)
  · exact absurd starts (by decide)
  · exact absurd starts (by decide)

/-! ## Pieces of literals -/

theorem test_of_mem_upTo {test : Char → Bool} {count : Nat} {c : Char}
    (member : c ∈ (upTo test count input).text) : test c = true := by
  induction count generalizing input with
  | zero => exact absurd member List.not_mem_nil
  | succ count inductionHypothesis =>
    cases input with
    | nil => exact absurd member List.not_mem_nil
    | cons first rest =>
      rw [upTo] at member
      split at member
      next passes =>
        rcases List.mem_cons.mp member with rfl | later
        · exact passes
        · exact inductionHypothesis later
      next => exact absurd member List.not_mem_nil

/-- What is taken up to a count ends where the count is reached or the test fails. -/
theorem upTo_ends (test : Char → Bool) (count : Nat) (input : List Char) :
    (upTo test count input).text.length = count ∨
      (upTo test count input).rest.head?.any test = false := by
  induction count generalizing input with
  | zero => exact Or.inl rfl
  | succ count inductionHypothesis =>
    cases input with
    | nil => exact Or.inr rfl
    | cons c rest =>
      rw [upTo]
      split
      next => exact (inductionHypothesis rest).imp_left (congrArg Nat.succ)
      next fails => exact Or.inr (Bool.eq_false_iff.mpr fails)

theorem upTo_of_stops {test : Char → Bool} (count : Nat) (stops : follow.head?.any test = false) :
    upTo test count follow = .nothing follow := by
  cases count with
  | zero => rfl
  | succ count =>
    cases follow with
    | nil => rfl
    | cons c rest => exact if_neg (Bool.eq_false_iff.mp stops)

theorem upTo_cut {test : Char → Bool} {count : Nat}
    (ends : (upTo test count input).text.length = count ∨ follow.head?.any test = false) :
    upTo test count ((upTo test count input).text ++ follow) =
      ⟨(upTo test count input).text, follow⟩ := by
  induction count generalizing input with
  | zero => rfl
  | succ count inductionHypothesis =>
    cases input with
    | nil => exact upTo_of_stops _ (ends.resolve_left fun full => absurd full.symm (Nat.succ_ne_zero _))
    | cons c rest =>
      rw [upTo] at ends ⊢
      split at ends
      next passes =>
        rw [if_pos passes, Split.after, List.append_assoc, List.singleton_append, upTo,
          if_pos passes, inductionHypothesis (ends.imp_left Nat.succ.inj)]
        rfl
      next fails =>
        rw [if_neg fails]
        exact upTo_of_stops _ (ends.resolve_left fun full => absurd full.symm (Nat.succ_ne_zero _))

theorem hexChar?_cut {count : Nat} {scanned : Scanned Char}
    (found : hexChar? count input = some scanned) (follow : List Char) :
    hexChar? count (scanned.text ++ follow) = some ⟨⟨scanned.text, follow⟩, scanned.value⟩ ∧
      scanned.text.length = count ∧ ∀ c ∈ scanned.text, Text.isHexDigit c = true := by
  unfold hexChar? at found
  dsimp only at found
  split at found
  next full =>
    obtain ⟨value, isCode, rfl⟩ := Option.map_eq_some_iff.mp found
    refine ⟨?_, full, fun c member => test_of_mem_upTo member⟩
    unfold hexChar?
    dsimp only
    rw [upTo_cut (Or.inl full), if_pos full, isCode]
    rfl
  next => contradiction

theorem bracedChar?_cut {scanned : Scanned Char} (found : bracedChar? input = some scanned)
    (follow : List Char) :
    bracedChar? (scanned.text ++ follow) = some ⟨⟨scanned.text, follow⟩, scanned.value⟩ := by
  unfold bracedChar? at found
  split at found
  next input =>
    dsimp only at found
    split at found
    next =>
      split at found
      next => contradiction
      next nonempty =>
        obtain ⟨value, isCode, rfl⟩ := Option.map_eq_some_iff.mp found
        have again : upTo Text.isHexDigit 6 ((upTo Text.isHexDigit 6 input).text ++ '\x7d' :: follow) =
            ⟨(upTo Text.isHexDigit 6 input).text, '\x7d' :: follow⟩ :=
          upTo_cut (Or.inr rfl)
        rw [List.append_assoc, List.singleton_append, List.cons_append, bracedChar?]
        dsimp only
        rw [again]
        exact (if_neg nonempty).trans (congrArg (Option.map _) isCode)
    next => contradiction
  next => contradiction

/-- The code of a character is read again whatever follows. -/
theorem code?_cut {scanned : Scanned Char}
    (found : (bracedChar? input).or (hexChar? 4 input) = some scanned) (follow : List Char) :
    (bracedChar? (scanned.text ++ follow)).or (hexChar? 4 (scanned.text ++ follow)) =
      some ⟨⟨scanned.text, follow⟩, scanned.value⟩ := by
  rcases Option.or_eq_some_iff.mp found with braced | ⟨_, plain⟩
  · rw [bracedChar?_cut braced follow, Option.some_or]
  · obtain ⟨again, length, digits⟩ := hexChar?_cut plain follow
    obtain ⟨c, rest, first⟩ : ∃ c rest, scanned.text = c :: rest :=
      List.exists_cons_of_length_pos (length ▸ Nat.succ_pos 3)
    have noBracket : c ≠ '\x7b' := by
      rintro rfl
      exact absurd (digits '\x7b' (first ▸ List.mem_cons_self)) (by decide)
    rw [again, first, List.cons_append, bracedChar?_of_ne noBracket, Option.none_or]

theorem lineBreak?_cut {lineBreak : Split} (found : lineBreak? input = some lineBreak)
    (follow : List Char) :
    lineBreak? (lineBreak.text ++ follow) = some ⟨lineBreak.text, follow⟩ := by
  unfold lineBreak? at found
  split at found
  next => exact Option.some.inj found ▸ rfl
  next => exact Option.some.inj found ▸ rfl
  next => contradiction

theorem lineBreak?_eq_none {c : Char} (rest : List Char) (noFeed : c ≠ '\n') (noReturn : c ≠ '\r') :
    lineBreak? (c :: rest) = none := by
  unfold lineBreak?
  split
  next same => exact absurd (List.cons.inj same).1 noFeed
  next same => exact absurd (List.cons.inj same).1 noReturn
  next => rfl

/-- An escape that can be decoded is decoded again when the text after it starts as before. -/
theorem escape_cut (valid : ∀ characters, (escape input).value ≠ .invalid characters) :
    ∃ taken, (escape input).text = '\\' :: taken ∧
      ∀ follow : List Char, follow.head? = (escape input).rest.head? →
        escape (taken ++ follow) = ⟨⟨'\\' :: taken, follow⟩, (escape input).value⟩ := by
  cases broken : lineBreak? input with
  | some lineBreak =>
    rw [escape_of_joined broken]
    refine ⟨lineBreak.text, rfl, fun follow _ => ?_⟩
    rw [escape_of_joined (lineBreak?_cut broken follow)]
    rfl
  | none =>
    rcases input with _ | ⟨c, rest⟩
    · exact absurd rfl (valid _)
    by_cases isReturn : c = '\r'
    · subst isReturn
      have invalid : ∃ characters, (escape ('\r' :: rest)).value = .invalid characters := by
        rw [escape.eq_def, broken]
        exact ⟨_, rfl⟩
      obtain ⟨characters, isInvalid⟩ := invalid
      exact absurd isInvalid (valid characters)
    by_cases isCode : c = 'u'
    · subst isCode
      cases found : (bracedChar? rest).or (hexChar? 4 rest) with
      | none =>
        rw [escape_code_of_none found] at valid
        exact absurd rfl (valid _)
      | some scanned =>
        rw [escape_code_of_some found]
        refine ⟨'u' :: scanned.text, rfl, fun follow _ => ?_⟩
        rw [List.cons_append, escape_code_of_some (code?_cut found follow)]
        rfl
    by_cases isByte : c = 'x'
    · subst isByte
      cases found : hexChar? 2 rest with
      | none =>
        rw [escape_byte_of_none found] at valid
        exact absurd rfl (valid _)
      | some scanned =>
        rw [escape_byte_of_some found]
        refine ⟨'x' :: scanned.text, rfl, fun follow _ => ?_⟩
        rw [List.cons_append, escape_byte_of_some (hexChar?_cut found follow).1]
        rfl
    have noFeed : c ≠ '\n' := by
      rintro rfl
      contradiction
    rw [escape_of_other broken isReturn isCode isByte]
    split
    next octal =>
      have first : upTo Text.isOctalDigit 3 (c :: rest) =
          (upTo Text.isOctalDigit 2 rest).after [c] := if_pos octal
      refine ⟨c :: (upTo Text.isOctalDigit 2 rest).text, by rw [first]; rfl, fun follow same => ?_⟩
      have ends := (upTo_ends Text.isOctalDigit 3 (c :: rest)).imp_right fun stops => same ▸ stops
      have again := upTo_cut ends
      rw [first, Split.after, List.append_assoc, List.singleton_append] at again
      rw [List.cons_append, escape_of_other (lineBreak?_eq_none _ noFeed isReturn) isReturn isCode
        isByte, if_pos octal, again, first]
      rfl
    next noOctal =>
      refine ⟨[c], rfl, fun follow _ => ?_⟩
      rw [List.singleton_append,
        escape_of_other (lineBreak?_eq_none follow noFeed isReturn) isReturn isCode isByte,
        if_neg noOctal]

theorem run_stops (test : Char → Bool) (input : List Char) :
    (run test input).rest.head?.any test = false := by
  have stopped := List.head?_dropWhile_not test input
  change (input.dropWhile test).head?.any test = false
  cases isHead : (input.dropWhile test).head? with
  | none => rfl
  | some c =>
    rw [isHead] at stopped
    exact stopped

variable {piece : Scanned Piece}

theorem stringPiece?_cut (found : stringPiece? input = some piece)
    (valid : ∀ characters, piece.value ≠ .invalid characters)
    (same : follow.head? = piece.rest.head?) :
    stringPiece? (piece.text ++ follow) = some ⟨⟨piece.text, follow⟩, piece.value⟩ := by
  cases input with
  | nil => contradiction
  | cons c rest =>
    rw [stringPiece?] at found
    split at found
    next isBackslash =>
      obtain rfl := Option.some.inj found
      obtain ⟨taken, text, again⟩ := escape_cut valid
      rw [text, List.cons_append, stringPiece?, if_pos rfl, again follow same]
    next noBackslash =>
      split at found
      next => contradiction
      next noEnd =>
        obtain rfl := Option.some.inj found
        have stops : follow.head?.any (fun other => !endsText other) = false :=
          same ▸ run_stops _ rest
        change stringPiece? (c :: (rest.takeWhile _ ++ follow)) = _
        rw [stringPiece?, if_neg noBackslash, if_neg noEnd, run_cut _ rest stops]
        rfl

theorem charPiece?_cut (found : charPiece? input = some piece)
    (valid : ∀ characters, piece.value ≠ .invalid characters)
    (same : follow.head? = piece.rest.head?) :
    charPiece? (piece.text ++ follow) = some ⟨⟨piece.text, follow⟩, piece.value⟩ := by
  cases input with
  | nil => contradiction
  | cons c rest =>
    rw [charPiece?] at found
    split at found
    next isBackslash =>
      obtain rfl := Option.some.inj found
      obtain ⟨taken, text, again⟩ := escape_cut valid
      rw [text, List.cons_append, charPiece?, if_pos rfl, again follow same]
    next noBackslash =>
      split at found
      next => contradiction
      next noEnd =>
        obtain rfl := Option.some.inj found
        rw [List.singleton_append, charPiece?, if_neg noBackslash, if_neg noEnd]

/-- Whether there is a piece of a string is told by the first character. -/
theorem stringPiece?_eq_none_congr (same : follow.head? = input.head?)
    (nothing : stringPiece? input = none) : stringPiece? follow = none := by
  cases input with
  | nil => rw [List.head?_eq_none_iff.mp same, nothing]
  | cons c rest =>
    obtain ⟨others, rfl⟩ := List.head?_eq_some_iff.mp same
    rw [stringPiece?] at nothing ⊢
    split at nothing
    next => contradiction
    next noBackslash =>
      split at nothing
      next ends => rw [if_neg noBackslash, if_pos ends]
      next => contradiction

theorem charPiece?_eq_none_congr (same : follow.head? = input.head?)
    (nothing : charPiece? input = none) : charPiece? follow = none := by
  cases input with
  | nil => rw [List.head?_eq_none_iff.mp same, nothing]
  | cons c rest =>
    obtain ⟨others, rfl⟩ := List.head?_eq_some_iff.mp same
    rw [charPiece?] at nothing ⊢
    split at nothing
    next => contradiction
    next noBackslash =>
      split at nothing
      next ends => rw [if_neg noBackslash, if_pos ends]
      next => contradiction

/-- Every escape among some pieces can be decoded. -/
def Decodable (pieces : List Spelled) : Prop :=
  ∀ spelled ∈ pieces, ∀ characters, spelled.piece ≠ .invalid characters

/-- What follows a part of a text starts like the text if it starts like the rest of it. -/
theorem head?_append_of_split {split : Split} (splitOf : split.Of input)
    (same : follow.head? = split.rest.head?) : (split.text ++ follow).head? = input.head? := by
  rw [← splitOf, List.head?_append, List.head?_append, same]

theorem stringBody_cut (decodable : Decodable (stringBody input).value)
    (same : follow.head? = (stringBody input).rest.head?) :
    stringBody ((stringBody input).text ++ follow) =
      ⟨⟨(stringBody input).text, follow⟩, (stringBody input).value⟩ := by
  fun_induction stringBody input with
  | case1 input nothing =>
    exact stringBody_of_none (stringPiece?_eq_none_congr same nothing)
  | case2 input piece found more inductionHypothesis =>
    have again := inductionHypothesis
      (fun spelled member => decodable spelled (List.mem_cons_of_mem _ member)) same
    have first := stringPiece?_cut found (decodable _ List.mem_cons_self)
      (head?_append_of_split (of_stringBody piece.rest) same)
    dsimp only [Split.after]
    rw [List.append_assoc, stringBody_of_some first]
    dsimp only
    rw [again]
    rfl

theorem charBody_cut (decodable : Decodable (charBody input).value)
    (same : follow.head? = (charBody input).rest.head?) :
    charBody ((charBody input).text ++ follow) =
      ⟨⟨(charBody input).text, follow⟩, (charBody input).value⟩ := by
  fun_induction charBody input with
  | case1 input nothing =>
    exact charBody_of_none (charPiece?_eq_none_congr same nothing)
  | case2 input piece found more inductionHypothesis =>
    have again := inductionHypothesis
      (fun spelled member => decodable spelled (List.mem_cons_of_mem _ member)) same
    have first := charPiece?_cut found (decodable _ List.mem_cons_self)
      (head?_append_of_split (of_charBody piece.rest) same)
    dsimp only [Split.after]
    rw [List.append_assoc, charBody_of_some first]
    dsimp only
    rw [again]
    rfl

end Offside.Scan
