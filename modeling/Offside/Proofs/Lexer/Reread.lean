import Offside.Proofs.Lexer.Lines
import Offside.Proofs.Lexer.Strings
import Offside.Proofs.Scan.Cut

/-!
Reading a piece of a text again. Two lexers mirror each other if they are inside of the same things
and at the same depth, whatever the widths of the levels and the places of the text are. What one
of them takes without an error, the other takes as the same token wherever it is set off.
-/

namespace Offside

open LexStream LexMode

/-! ## Mirrored states -/

/-- Modes that differ in nothing but where they start. -/
inductive LexMode.Alike : LexMode → LexMode → Prop
  | string (start again : Position) : Alike (.string start) (.string again)
  | interpolation (braces : Nat) : Alike (.interpolation braces) (.interpolation braces)

/-- The widths of levels each of which is by the same width deeper than the one outside of it. -/
def Layout.ladder (width : Nat) : Nat → List Nat
  | 0 => []
  | depth + 1 => width * (depth + 1) :: ladder width depth

namespace LexState

/-- The states differ in nothing but the text, its places, and the widths of the levels, which are
those of a ladder in the other one. -/
structure Mirrors (width : Nat) (state other : LexState) : Prop where
  modes : List.Forall₂ LexMode.Alike state.modes other.modes
  levels : other.layout.levels = Layout.ladder width state.layout.depth
  brackets : other.layout.brackets = state.layout.brackets
  started : other.layout.started = state.layout.started
  atLineStart : other.atLineStart = state.atLineStart
  lastKind : other.lastKind = state.lastKind
  finished : other.finished = state.finished

variable {width : Nat} {state other after : LexState} {kind : Kind} {split : Scan.Split}
  {follow : List Char}

theorem Mirrors.inString (mirrors : Mirrors width state other) (inside : InString state.modes) :
    InString other.modes := by
  obtain ⟨start, outer, modes⟩ := inside
  have same := mirrors.modes
  rw [modes] at same
  rcases modesOther : other.modes with _ | ⟨mode, rest⟩
  · rw [modesOther] at same
    cases same
  · rw [modesOther] at same
    rcases same with _ | ⟨_ | _, _⟩
    exact ⟨_, _, rfl⟩

theorem Mirrors.outside (mirrors : Mirrors width state other) (outside : ¬ InString state.modes) :
    ¬ InString other.modes := by
  rintro ⟨start, outer, modes⟩
  have same := mirrors.modes
  rw [modes] at same
  rcases modesState : state.modes with _ | ⟨mode, rest⟩
  · rw [modesState] at same
    cases same
  · rw [modesState] at same
    rcases same with _ | ⟨_ | _, _⟩
    exact outside ⟨_, _, modesState⟩

theorem Mirrors.take (mirrors : Mirrors width state other) (split again : Scan.Split) :
    Mirrors width (state.take split) (other.take again) :=
  ⟨mirrors.modes, mirrors.levels, mirrors.brackets, mirrors.started, mirrors.atLineStart,
    mirrors.lastKind, mirrors.finished⟩

theorem Mirrors.yield (mirrors : Mirrors width state other) (kind : Kind) (split again : Scan.Split)
    (errors faults : List LexError) :
    Mirrors width (state.yield kind split errors).2 (other.yield kind again faults).2 :=
  ⟨mirrors.modes, mirrors.levels, mirrors.brackets, mirrors.started, mirrors.atLineStart, rfl,
    mirrors.finished⟩

theorem Mirrors.atOperand (mirrors : Mirrors width state other) :
    other.atOperand = state.atOperand := by
  rw [LexState.atOperand, LexState.atOperand, mirrors.lastKind]

theorem Mirrors.withModes (mirrors : Mirrors width state other) {modes others : List LexMode}
    (same : List.Forall₂ LexMode.Alike modes others) :
    Mirrors width { state with modes } { other with modes := others } :=
  ⟨same, mirrors.levels, mirrors.brackets, mirrors.started, mirrors.atLineStart, mirrors.lastKind,
    mirrors.finished⟩

theorem Mirrors.withBrackets (mirrors : Mirrors width state other) (change : Nat → Nat) :
    Mirrors width
      { state with layout := { state.layout with brackets := change state.layout.brackets } }
      { other with layout := { other.layout with brackets := change other.layout.brackets } } :=
  ⟨mirrors.modes, mirrors.levels, congrArg change mirrors.brackets, mirrors.started,
    mirrors.atLineStart, mirrors.lastKind, mirrors.finished⟩

/-- A bracket does the same in both states. -/
theorem Mirrors.bracket (mirrors : Mirrors width state other) (symbol : Symbol) :
    (other.bracket symbol).1 = (state.bracket symbol).1 ∧
      Mirrors width (state.bracket symbol).2 (other.bracket symbol).2 := by
  have opened := mirrors.withBrackets (· + 1)
  have closed := mirrors.withBrackets (· - 1)
  obtain ⟨rest, position, modes, layout, atLineStart, lastKind, finished, ended⟩ := state
  obtain ⟨restOther, positionOther, others, layoutOther, atLineStartOther, lastKindOther,
    finishedOther, endedOther⟩ := other
  have same : List.Forall₂ LexMode.Alike modes others := mirrors.modes
  cases symbol with
  | leftParen => exact ⟨rfl, opened⟩
  | leftBracket => exact ⟨rfl, opened⟩
  | rightParen => exact ⟨rfl, closed⟩
  | rightBracket => exact ⟨rfl, closed⟩
  | leftCurly =>
    rcases same with _ | ⟨⟨start, again⟩ | braces, outer⟩
    · exact ⟨rfl, opened⟩
    · exact ⟨rfl, opened⟩
    · exact ⟨rfl, opened.withModes (.cons (.interpolation (braces + 1)) outer)⟩
  | rightCurly =>
    rcases same with _ | ⟨⟨start, again⟩ | _ | braces, outer⟩
    · exact ⟨rfl, closed⟩
    · exact ⟨rfl, closed⟩
    · exact ⟨rfl, closed.withModes outer⟩
    · exact ⟨rfl, closed.withModes (.cons (.interpolation braces) outer)⟩
  | _ => exact ⟨rfl, mirrors⟩

/-! ## Literals -/

theorem decodable_of_decode {position : Position} {pieces : List Scan.Spelled}
    (clean : (decode position pieces).2 = []) : Scan.Decodable pieces := by
  induction pieces generalizing position with
  | nil => exact fun _ member => absurd member List.not_mem_nil
  | cons spelled pieces inductionHypothesis =>
    obtain ⟨text, piece⟩ := spelled
    have valid : ∀ characters, piece ≠ .invalid characters := by
      rintro characters rfl
      exact absurd clean (List.cons_ne_nil _ _)
    have later : (decode (position.advance text) pieces).2 = [] := by
      cases piece with
      | invalid characters => exact absurd rfl (valid characters)
      | _ => exact clean
    rintro other (_ | ⟨_, member⟩)
    · exact valid
    · exact inductionHypothesis later other member

/-- What can be decoded stands for the same wherever it is. -/
theorem decode_eq {pieces : List Scan.Spelled} (decodable : Scan.Decodable pieces)
    (position other : Position) : decode other pieces = ((decode position pieces).1, []) := by
  induction pieces generalizing position other with
  | nil => rfl
  | cons spelled pieces inductionHypothesis =>
    obtain ⟨text, piece⟩ := spelled
    have later := inductionHypothesis
      (fun spelled member => decodable spelled (List.mem_cons_of_mem _ member))
      (position.advance text) (other.advance text)
    rw [decode, later]
    cases piece with
    | invalid characters => exact absurd rfl (decodable _ List.mem_cons_self characters)
    | _ => rfl

/-! ## Tokens of code -/

theorem plainToken_of_number {c : Char} {rest : List Char} {number : Scan.Scanned Scan.Numeral}
    (found : Scan.numeral? state.atOperand (c :: rest) = some number)
    (valid : number.value.evaluate.2 = none) :
    state.plainToken c rest = state.yield number.value.evaluate.1 number.toSplit [] := by
  rw [plainToken]
  dsimp only
  rw [found]
  dsimp only
  rw [valid]
  rfl

theorem plainToken_of_word {c : Char} {rest : List Char} {word : Scan.Scanned Kind}
    (noNumber : Scan.numeral? state.atOperand (c :: rest) = none)
    (found : Scan.word? (c :: rest) = some word) :
    state.plainToken c rest = state.yield word.value word.toSplit [] := by
  rw [plainToken]
  dsimp only
  rw [noNumber]
  dsimp only
  rw [found]

theorem plainToken_of_symbol {c : Char} {rest : List Char} {symbol : Scan.Scanned Symbol}
    (noNumber : Scan.numeral? state.atOperand (c :: rest) = none)
    (noWord : Scan.word? (c :: rest) = none) (found : Scan.symbol? (c :: rest) = some symbol) :
    state.plainToken c rest = (state.bracket symbol.value).2.yield (state.bracket symbol.value).1
      symbol.toSplit [] := by
  rw [plainToken]
  dsimp only
  rw [noNumber]
  dsimp only
  rw [noWord]
  dsimp only
  rw [found]

/-- A piece that was taken as a token of code is taken as the same token, and leaves a mirrored
state behind. -/
structure Retaken (width : Nat) (state : LexState) (kind : Kind) (text : List Char)
    (after : LexState) (follow : List Char) : Prop where
  opens : Scan.Opens (text ++ follow)
  taken : ∀ other : LexState, Mirrors width state other → other.rest = text ++ follow →
    ∃ again : LexState, Mirrors width after again ∧
      other.codeToken = again.yield kind ⟨text, follow⟩ []

theorem retaken_stringStart (spelled : split.text = ['"'] ∨ split.text = ['$', '"']) :
    Retaken width state .stringStart split.text
      { state with modes := .string state.position :: state.modes } follow := by
  rcases spelled with text | text
  · rw [text]
    refine ⟨Scan.opens_of_first (by decide), fun other mirrors rest => ?_⟩
    refine ⟨_, mirrors.withModes (.cons (.string _ other.position) mirrors.modes), ?_⟩
    unfold codeToken
    rw [rest]
    rfl
  · rw [text]
    refine ⟨Scan.opens_of_first (by decide), fun other mirrors rest => ?_⟩
    refine ⟨_, mirrors.withModes (.cons (.string _ other.position) mirrors.modes), ?_⟩
    unfold codeToken
    rw [rest]
    rfl

theorem retaken_character {rest after : List Char} {c : Char}
    (closed : (Scan.charBody rest).rest = '\'' :: after)
    (single : (state.literalValue rest).1 = [c]) (clean : (state.literalValue rest).2 = []) :
    Retaken width state (.char c) (literalSplit rest after).text state follow := by
  refine ⟨Scan.opens_of_first (by decide), fun other mirrors found => ⟨other, mirrors, ?_⟩⟩
  have decodable := decodable_of_decode clean
  have same : ('\'' :: follow).head? = (Scan.charBody rest).rest.head? := by
    rw [closed]
    rfl
  have body := Scan.charBody_cut decodable same
  have input : other.rest = '\'' :: ((Scan.charBody rest).text ++ '\'' :: follow) := by
    rw [found, literalSplit, List.append_assoc]
    rfl
  have start : other.codeToken =
      other.characterLiteral ((Scan.charBody rest).text ++ '\'' :: follow) := by
    unfold codeToken
    rw [input]
    rfl
  have closes : (Scan.charBody ((Scan.charBody rest).text ++ '\'' :: follow)).rest =
      '\'' :: follow := by
    rw [body]
  rw [start, characterLiteral_of_closed closes, body]
  dsimp only
  rw [decode_eq decodable (state.position.advance ['\''])]
  unfold literalValue at single
  rw [single]
  rfl

theorem retaken_number {number : Scan.Scanned Scan.Numeral}
    (found : Scan.numeral? state.atOperand state.rest = some number)
    (valid : number.value.evaluate.2 = none) (ended : Scan.Ended follow) :
    Retaken width state number.value.evaluate.1 number.text state follow := by
  obtain ⟨again, c, rest, first, start⟩ := Scan.numeral?_cut found ended
  have apart : ∀ other : Char, Text.isDigit other = false → other ≠ '.' → other ≠ '+' →
      other ≠ '-' → c ≠ other := by
    rintro other noDigit noPoint noPlus noMinus rfl
    rcases start with isDigit | isPoint | isPlus | isMinus
    · exact absurd (noDigit.symm.trans isDigit) Bool.false_ne_true
    · exact noPoint isPoint
    · exact noPlus isPlus
    · exact noMinus isMinus
  rw [first] at again ⊢
  refine ⟨Scan.opens_of_first ?_, fun other mirrors input => ⟨other, mirrors, ?_⟩⟩
  · simp only [List.mem_cons, List.not_mem_nil, or_false, not_or]
    refine ⟨?_, ?_, ?_, ?_, ?_, ?_, ?_, ?_⟩
    all_goals exact apart _ rfl (by decide) (by decide) (by decide)
  · have noQuote : c ≠ '"' ∧ c ≠ '\'' :=
      ⟨apart _ rfl (by decide) (by decide) (by decide), apart _ rfl (by decide) (by decide) (by decide)⟩
    rw [codeToken_eq_plainToken input noQuote
      (fun slash => absurd slash (apart _ rfl (by decide) (by decide) (by decide)))
      (fun dollar => absurd dollar (apart _ rfl (by decide) (by decide) (by decide)))]
    rw [← mirrors.atOperand] at again
    exact plainToken_of_number again valid

theorem opens_of_isName {name : List Char} (isName : Text.isName name = true) (follow : List Char) :
    Scan.Opens (name ++ follow) := by
  obtain ⟨c, rest, rfl, starts, _⟩ := Text.exists_cons_of_isName isName
  have apart : ∀ other : Char, Text.isNameStart other = false → c ≠ other := by
    rintro other fails rfl
    exact absurd (fails.symm.trans starts) Bool.false_ne_true
  apply Scan.opens_of_first
  simp only [List.mem_cons, List.not_mem_nil, or_false, not_or]
  exact ⟨apart _ rfl, apart _ rfl, apart _ rfl, apart _ rfl, apart _ rfl, apart _ rfl,
    apart _ rfl, apart _ Text.isNameStart_mark⟩

/-- A name is taken as a word where nothing goes on with it. -/
theorem codeToken_of_isName {name : List Char} (isName : Text.isName name = true)
    (found : Scan.word? (name ++ follow) = some ⟨⟨name, follow⟩, kind⟩) (ended : Scan.Ended follow)
    (input : state.rest = name ++ follow) :
    state.codeToken = state.yield kind ⟨name, follow⟩ [] := by
  have noNumeral := @Scan.numeral?_of_isName follow state.atOperand _ isName
  obtain ⟨c, rest, rfl, starts, continues⟩ := Text.exists_cons_of_isName isName
  have apart : ∀ other : Char, Text.isNameStart other = false → c ≠ other := by
    rintro other fails rfl
    exact absurd (fails.symm.trans starts) Bool.false_ne_true
  have noString : (rest ++ follow).head? ≠ some '"' := by
    cases rest with
    | nil =>
      intro quoted
      rcases ended _ quoted with same | same
      · exact absurd same (by decide)
      · exact absurd same (by decide)
    | cons next rest =>
      intro quoted
      obtain rfl : next = '"' := Option.some.inj quoted
      exact absurd (continues '"' List.mem_cons_self) (by decide)
  rw [codeToken_eq_plainToken input ⟨apart _ rfl, apart _ rfl⟩
    (fun slash => absurd slash (apart _ rfl)) (fun _ => noString)]
  exact plainToken_of_word noNumeral found

theorem retaken_word {word : Scan.Scanned Kind} (found : Scan.word? state.rest = some word)
    (ended : Scan.Ended follow) : Retaken width state word.value word.text state follow := by
  obtain ⟨again, isName⟩ := Scan.word?_cut found ended
  exact ⟨opens_of_isName isName follow, fun other mirrors input =>
    ⟨other, mirrors, codeToken_of_isName isName again ended input⟩⟩

/-- The first characters of a symbol that stands alone start no comment and no literal. -/
theorem opens_symbol (symbol : Symbol) (alone : Scan.Ended follow ∨ symbol = .rightCurly) :
    Scan.Opens (symbol.characters ++ follow) ∧
      ∃ c more, symbol.characters = c :: more ∧ (c ≠ '"' ∧ c ≠ '\'') ∧ c ≠ '$' ∧
        (c = '/' → (more ++ follow).head? ≠ some '*') := by
  rcases alone with ended | rfl
  · rcases ended.cases with rfl | ⟨other, others, rfl, rfl | rfl⟩
    · cases symbol <;>
        exact ⟨⟨rfl, rfl, List.cons_ne_nil _ _, by simp [Symbol.characters]⟩, _, _, rfl, by decide,
          by decide, by decide⟩
    · cases symbol <;>
        exact ⟨⟨rfl, rfl, List.cons_ne_nil _ _, by simp [Symbol.characters]⟩, _, _, rfl, by decide,
          by decide, by simp⟩
    · cases symbol <;>
        exact ⟨⟨rfl, rfl, List.cons_ne_nil _ _, by simp [Symbol.characters]⟩, _, _, rfl, by decide,
          by decide, by simp⟩
  · exact ⟨Scan.opens_of_first (by decide), _, _, rfl, by decide, by decide,
      fun slash => absurd slash (by decide)⟩

theorem retaken_symbol (symbol : Symbol) (alone : Scan.Ended follow ∨ symbol = .rightCurly) :
    Retaken width state (state.bracket symbol).1 symbol.characters (state.bracket symbol).2
      follow := by
  obtain ⟨opens, c, more, first, noQuote, noDollar, noComment⟩ := opens_symbol symbol alone
  refine ⟨opens, fun other mirrors input => ?_⟩
  have noNumber := Scan.numeral?_of_symbol other.atOperand symbol alone
  have noWord := Scan.word?_symbol symbol follow
  have found := Scan.symbol?_cut symbol alone
  rw [first, List.cons_append] at input noNumber noWord found
  obtain ⟨same, mirrored⟩ := mirrors.bracket symbol
  refine ⟨_, mirrored, ?_⟩
  rw [codeToken_eq_plainToken input noQuote noComment (fun dollar => absurd dollar noDollar),
    plainToken_of_symbol noNumber noWord found, same, first]

/-- Outside of a string a bracket stays outside, unless it closes an interpolation. -/
theorem outside_bracket (outside : ¬ InString state.modes) (symbol : Symbol) :
    ¬ InString (state.bracket symbol).2.modes ∨ symbol = .rightCurly := by
  by_cases closes : symbol = .rightCurly
  · exact Or.inr closes
  · rcases bracket_modes state symbol with ⟨outer, modes, isEnd, after⟩ | ⟨_, same | counted⟩
    · cases symbol with
      | rightCurly => exact absurd rfl closes
      | _ => exact absurd isEnd Kind.noConfusion
    · exact Or.inl (same ▸ outside)
    · obtain ⟨braces, more, outer, _, after⟩ := counted
      exact Or.inl (after ▸ not_inString_interpolation more outer)

/-- A token of code without errors is taken again if something set off follows it, or nothing, or if
it is followed by the inside of a string. -/
theorem TakesCode.retaken (width : Nat) (takes : TakesCode state kind split [] after)
    (outside : ¬ InString state.modes) (ended : ¬ InString after.modes → Scan.Ended follow) :
    Retaken width state kind split.text after follow := by
  generalize clean : ([] : List LexError) = errors at takes
  cases takes with
  | stringStart splitOf spelled => exact retaken_stringStart spelled
  | character found closed single => exact retaken_character closed single clean.symm
  | wrongCharacter fault found closed => exact absurd clean (by simp)
  | number found =>
    refine retaken_number found ?_ (ended outside)
    rw [eq_comm, List.map_eq_nil_iff, Option.toList_eq_nil_iff] at clean
    exact clean
  | word _ found => exact retaken_word found (ended outside)
  | symbol _ _ found =>
    rw [Scan.text_of_symbol? found]
    exact retaken_symbol _ ((outside_bracket outside _).imp_left ended)

/-! ## Parts of strings -/

/-- A part of a string without errors is taken again, if what follows a fragment starts as
before. -/
theorem TakesPart.retaken (takes : TakesPart state kind split [] after) {other : LexState}
    (mirrors : Mirrors width state other) (inside : InString state.modes)
    (starts : ∀ text, kind = .stringFragment text → follow.head? = split.rest.head?)
    (rest : other.rest = split.text ++ follow) :
    ∃ again : LexState, Mirrors width after again ∧
      other.step = again.yield kind ⟨split.text, follow⟩ [] := by
  obtain ⟨start, outer, modes⟩ := mirrors.inString inside
  rw [step_of_string modes]
  generalize clean : ([] : List LexError) = errors at takes
  cases takes with
  | stringEnd found =>
    have tails : List.Forall₂ LexMode.Alike state.modes.tail other.modes.tail := by
      simpa only [List.drop_one] using List.forall₂_drop 1 mirrors.modes
    refine ⟨{ other with modes := other.modes.tail }, mirrors.withModes tails, ?_⟩
    unfold stringPart
    rw [rest]
    rfl
  | interpolationStart found =>
    refine ⟨{ other with modes := .interpolation 0 :: other.modes, layout := other.layout.openBracket },
      (mirrors.withBrackets (· + 1)).withModes (.cons (.interpolation 0) mirrors.modes), ?_⟩
    unfold stringPart
    rw [rest]
    rfl
  | fragment nonempty =>
    have decodable := decodable_of_decode clean.symm
    have body := Scan.stringBody_cut decodable (starts _ rfl)
    refine ⟨other, mirrors, ?_⟩
    have more : ∀ c others, Scan.stringPiece? (c :: others) = none → other.rest ≠ c :: others := by
      intro c others nothing same
      rw [← rest, same, Scan.stringBody_of_none nothing] at body
      exact nonempty (congrArg Scan.Scanned.value body).symm
    rw [stringPart_of_fragment (fun others => more _ others rfl) (fun others => more _ others rfl),
      rest, body]
    dsimp only
    rw [if_neg nonempty, decode_eq decodable state.position, ← clean]

end LexState

/-! ## Lines -/

namespace Layout

variable {width depth : Nat}

@[simp]
theorem headD_ladder (width depth : Nat) : (ladder width depth).headD 0 = width * depth := by
  cases depth with
  | zero => rfl
  | succ depth => rfl

@[simp]
theorem length_ladder (width depth : Nat) : (ladder width depth).length = depth := by
  induction depth with
  | zero => rfl
  | succ depth inductionHypothesis => rw [ladder, List.length_cons, inductionHypothesis]

/-- Down to some depth, the levels of a ladder are deeper than there. -/
theorem ladder_split (positive : 0 < width) {outer : Nat} (lower : outer ≤ depth) :
    ∃ closed, ladder width depth = closed ++ ladder width outer ∧ closed.length = depth - outer ∧
      ∀ level ∈ closed, width * outer < level := by
  induction depth with
  | zero =>
    obtain rfl := Nat.le_zero.mp lower
    exact ⟨[], rfl, rfl, fun _ member => absurd member List.not_mem_nil⟩
  | succ depth inductionHypothesis =>
    rcases Nat.lt_or_eq_of_le lower with less | rfl
    · obtain ⟨closed, split, length, deeper⟩ := inductionHypothesis (Nat.le_of_lt_succ less)
      refine ⟨width * (depth + 1) :: closed, by rw [ladder, split]; rfl, ?_, fun level member => ?_⟩
      · rw [List.length_cons, length]
        omega
      · rcases List.mem_cons.mp member with rfl | inClosed
        · exact Nat.mul_lt_mul_of_pos_left less positive
        · exact deeper level inClosed
    · exact ⟨[], rfl, (Nat.sub_self _).symm, fun _ member => absurd member List.not_mem_nil⟩

/-- A line at a lower width closes a level. -/
theorem depth_closed_lt {layout : Layout} {indent : Nat} (shallower : indent < layout.top) :
    (layout.closed indent).depth < layout.depth := by
  unfold top at shallower
  unfold depth closed
  dsimp only
  cases levels : layout.levels with
  | nil =>
    rw [levels] at shallower
    exact absurd shallower (Nat.not_lt_zero _)
  | cons level outer =>
    rw [levels] at shallower
    have dropped : closeAbove indent (level :: outer) = closeAbove indent outer :=
      List.dropWhile_cons_of_pos (decide_eq_true shallower)
    rw [dropped]
    exact Nat.lt_succ_of_le (List.dropWhile_suffix _).sublist.length_le

/-- What a line does to some levels, a line at the depth after it does to a ladder of as many. -/
theorem line_ladder (positive : 0 < width) {layout other after : Layout} {indent : Nat}
    {lineLayout : LineLayout} (laid : layout.line indent = (.ok lineLayout, after))
    (levels : other.levels = ladder width layout.depth) (started : other.started = layout.started) :
    other.line (width * after.depth) =
      (.ok lineLayout, { other with started := true, levels := ladder width after.depth }) := by
  have top : other.top = width * layout.depth := by rw [Layout.top, levels, headD_ladder]
  rcases Nat.lt_trichotomy indent layout.top with shallower | same | deeper
  · have fewer := depth_closed_lt shallower
    rw [line_of_lt shallower] at laid
    split at laid
    next =>
      obtain ⟨isDedent, rfl⟩ := Prod.mk.inj laid
      obtain rfl := Except.ok.inj isDedent
      obtain ⟨closed, split, length, higher⟩ := ladder_split positive (Nat.le_of_lt fewer)
      have nonempty : closed ≠ [] := by
        rintro rfl
        rw [List.length_nil] at length
        omega
      have result := line_of_closed (levels.trans split) nonempty (by rwa [headD_ladder])
      rw [headD_ladder, length] at result
      exact result
    next => exact absurd (Prod.mk.inj laid).1 (by simp)
  · rw [line_of_eq same] at laid
    obtain ⟨isLine, rfl⟩ := Prod.mk.inj laid
    obtain rfl := Except.ok.inj isLine
    change other.line (width * layout.depth) =
      (_, { other with started := true, levels := ladder width layout.depth })
    rw [line_of_eq top.symm, started, ← levels]
  · rw [line_of_gt deeper] at laid
    obtain ⟨isIndent, rfl⟩ := Prod.mk.inj laid
    obtain rfl := Except.ok.inj isIndent
    have more : other.top < width * (layout.depth + 1) := by
      rw [top]
      exact Nat.mul_lt_mul_of_pos_left (Nat.lt_succ_self _) positive
    exact (line_of_gt more).trans (by rw [levels]; rfl)

end Layout

namespace Scan

/-- A line break before a line of code is a line without code. -/
theorem blankLines_lineFeed (width : Nat) {input : List Char} (opens : Opens input) :
    blankLines ('\n' :: (List.replicate width ' ' ++ input)) =
      ⟨['\n'], List.replicate width ' ' ++ input⟩ := by
  have lead : leading ('\n' :: (List.replicate width ' ' ++ input)) =
      .nothing ('\n' :: (List.replicate width ' ' ++ input)) := rfl
  have found : lineBreak?
      (trivia (leading ('\n' :: (List.replicate width ' ' ++ input))).rest).rest =
        some ⟨['\n'], List.replicate width ' ' ++ input⟩ := by
    rw [lead]
    dsimp only [Split.nothing]
    rw [trivia_lineFeed]
    rfl
  rw [blankLines_of_some found, (blankLines_line width opens).2, lead]
  dsimp only [Split.nothing]
  rw [trivia_lineFeed]
  rfl

end Scan

namespace LexState

variable {width indent : Nat} {state other line : LexState} {input : List Char}

/-- Indentation that is written with spaces, of a line that fits the levels. -/
theorem indentation_of_spaces (counted : indent < Layout.widthCount) (opens : Scan.Opens input)
    (rest : state.rest = List.replicate indent ' ' ++ input) {lineLayout : LineLayout}
    {layout : Layout} (laid : state.layout.line indent = (.ok lineLayout, layout)) :
    state.indentation =
      ((layoutKinds lineLayout).map (state.take (Scan.leading state.rest)).structural,
        { state.take ⟨List.replicate indent ' ', input⟩ with
          layout
          atLineStart := false
          lastKind := (layoutKinds lineLayout).getLast?.or state.lastKind }) := by
  have lead := (Scan.blankLines_line indent opens).1
  unfold indentation
  rw [rest, lead]
  simp only [Layout.measure_spaces state.layout counted, laid, lineKinds, lineErrors, List.map_nil,
    List.append_nil]
  rfl

end LexState

end Offside
