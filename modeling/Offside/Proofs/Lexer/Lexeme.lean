import Offside.Proofs.Lexer.Items
import Offside.Proofs.Scan.Words

/-!
Tokens without their places, and how they are written. What is written is read back: the next
token of code is the lexeme that the text starts with, if it is set off from what follows.
-/

namespace Offside

/-- A token without its place. -/
structure Lexeme where
  kind : Kind
  text : String
deriving DecidableEq, Repr

def Token.lexeme (token : Token) : Lexeme :=
  ⟨token.kind, token.text⟩

namespace Lexeme

def layout (kind : Kind) : Lexeme :=
  ⟨kind, ""⟩

def symbol (symbol : Symbol) : Lexeme :=
  ⟨.symbol symbol, symbol.spelling⟩

def word (text : String) : Lexeme :=
  ⟨.ofWord text, text⟩

def integer (value : Nat) : Lexeme :=
  ⟨.integer value, String.ofList (Nat.toDigits 10 value)⟩

def char (c : Char) : Lexeme :=
  ⟨.char c, String.ofList ('\'' :: Scan.escaped c ++ ['\''])⟩

def stringStart : Lexeme :=
  ⟨.stringStart, "\""⟩

def stringFragment (text : String) : Lexeme :=
  ⟨.stringFragment text, String.ofList (text.toList.flatMap Scan.escaped)⟩

def interpolationStart : Lexeme :=
  ⟨.interpolationStart, "\x7b"⟩

def interpolationEnd : Lexeme :=
  ⟨.interpolationEnd, "\x7d"⟩

def stringEnd : Lexeme :=
  ⟨.stringEnd, "\""⟩

/-- Whether the lexeme follows on the inside of a string, where a space would be text. -/
def isPart (lexeme : Lexeme) : Bool :=
  match lexeme.kind with
  | .stringFragment _ | .interpolationStart | .stringEnd => true
  | _ => false

def spaced (lexeme : Lexeme) : List Char :=
  if lexeme.isPart then lexeme.text.toList else ' ' :: lexeme.text.toList

/-- Lexemes with a space before each, but not inside of strings. -/
def spacedAll (lexemes : List Lexeme) : List Char :=
  lexemes.flatMap spaced

/-- Lexemes with a space between any two, but not inside of strings. -/
def written (lexemes : List Lexeme) : List Char :=
  (spacedAll lexemes).tail

end Lexeme

namespace LexState

/-! ## The next token of code -/

theorem codeToken_eq_plainToken {state : LexState} {c : Char} {rest : List Char}
    (equality : state.rest = c :: rest) (noQuote : c ≠ '"' ∧ c ≠ '\'')
    (noComment : c = '/' → rest.head? ≠ some '*') (noString : c = '$' → rest.head? ≠ some '"') :
    state.codeToken = state.plainToken c rest := by
  unfold codeToken
  rw [equality]
  split
  next empty => exact nomatch empty
  next same =>
    obtain ⟨rfl, rfl⟩ := List.cons.inj same
    exact absurd rfl (noComment rfl)
  next same => exact absurd (List.head_eq_of_cons_eq same) noQuote.1
  next same =>
    obtain ⟨rfl, rfl⟩ := List.cons.inj same
    exact absurd rfl (noString rfl)
  next same => exact absurd (List.head_eq_of_cons_eq same) noQuote.2
  next same =>
    obtain ⟨rfl, rfl⟩ := List.cons.inj same
    rfl

/-- The state after a token of code: the rest of the text is what follows it, and brackets may
have changed the layout. -/
def afterCode (state : LexState) (kind : Kind) (split : Scan.Split) (layout : Layout) : LexState :=
  { state with
    rest := split.rest
    position := state.position.advance split.text
    layout
    lastKind := some kind }

end LexState

namespace Lexeme

/-- A lexeme that is read back as the next token of code wherever it is set off, and that does
something to the layout. -/
structure Coded (lexeme : Lexeme) (adjust : Layout → Layout) : Prop where
  opens : ∀ follow, Scan.SetOff follow → Scan.Opens (lexeme.text.toList ++ follow)
  isCode : lexeme.isPart = false
  taken : ∀ (state : LexState) (follow : List Char), Scan.SetOff follow →
    state.rest = lexeme.text.toList ++ follow →
      ∃ token : Token, token.lexeme = lexeme ∧
        state.codeToken = ([.token token], state.afterCode lexeme.kind
          ⟨lexeme.text.toList, follow⟩ (adjust state.layout))

theorem isPart_ofWord (text other : String) : (⟨.ofWord text, other⟩ : Lexeme).isPart = false := by
  unfold Kind.ofWord
  split
  · rfl
  · split
    · rfl
    · split
      · rfl
      · split
        · rfl
        · split
          · rfl
          · rfl

/-- A dollar sign that starts a name starts no string. -/
theorem head?_ne_quote_of_isName {c : Char} {rest follow : List Char}
    (isName : Text.isName (c :: rest) = true) (setOff : Scan.SetOff follow) :
    (rest ++ follow).head? ≠ some '"' := by
  intro quoted
  cases rest with
  | nil =>
    obtain ⟨other, more, rfl, rfl | rfl⟩ := setOff
    · exact absurd quoted (by simp)
    · exact absurd quoted (by simp)
  | cons other rest =>
    rw [Text.isName, List.all_cons, Bool.and_eq_true, Bool.and_eq_true] at isName
    obtain rfl : other = '"' := Option.some.inj quoted
    exact absurd isName.2.1 (by decide)

theorem coded_word {text : String} (isName : Text.isName text.toList = true) :
    (word text).Coded id := by
  obtain ⟨c, rest, characters⟩ : ∃ c rest, text.toList = c :: rest :=
    List.exists_cons_of_ne_nil (by rintro empty; rw [empty] at isName; exact nomatch isName)
  have starts : Text.isNameStart c = true := by
    rw [characters, Text.isName, Bool.and_eq_true] at isName
    exact isName.1
  have first : ∀ other : Char, Text.isNameStart other = false → c ≠ other := by
    rintro other fails rfl
    rw [starts] at fails
    contradiction
  refine ⟨?_, isPart_ofWord text text, ?_⟩
  · intro follow _
    change Scan.Opens (text.toList ++ follow)
    rw [characters]
    apply Scan.opens_of_first
    simp only [List.mem_cons, List.not_mem_nil, or_false, not_or]
    exact ⟨first _ rfl, first _ rfl, first _ rfl, first _ rfl, first _ rfl, first _ rfl,
      first _ rfl, first _ Text.isNameStart_mark⟩
  · intro state follow setOff equality
    have noNumeral : Scan.numeral? state.atOperand (c :: (rest ++ follow)) = none := by
      apply Scan.numeral?_eq_none
      · exact Text.isDigit_eq_false_of_isNameStart starts
      · rintro (rfl | rfl | rfl)
        · exact absurd starts (by decide)
        · exact absurd starts (by decide)
        · exact absurd starts (by decide)
    have isWord : Scan.word? (c :: (rest ++ follow)) =
        some ⟨⟨text.toList, follow⟩, Kind.ofWord text⟩ := by
      have found := Scan.word?_append isName setOff
      rw [String.ofList_toList] at found
      rw [← found, characters, List.cons_append]
    have noString : (rest ++ follow).head? ≠ some '"' :=
      head?_ne_quote_of_isName (characters ▸ isName) setOff
    refine ⟨⟨Kind.ofWord text, String.ofList text.toList, state.spanOf ⟨text.toList, follow⟩⟩,
      ?_, ?_⟩
    · rw [Token.lexeme, String.ofList_toList]
      rfl
    · have input : state.rest = c :: (rest ++ follow) := by
        rw [equality, word, characters, List.cons_append]
      rw [LexState.codeToken_eq_plainToken input ⟨first _ rfl, first _ rfl⟩
        (fun slash => absurd slash (first _ rfl)) (fun _ => noString)]
      unfold LexState.plainToken
      simp only [noNumeral, isWord]
      rfl

/-- What a symbol does to the brackets. -/
def brackets : Symbol → Layout → Layout
  | .leftParen | .leftBracket => Layout.openBracket
  | .rightParen | .rightBracket => Layout.closeBracket
  | _ => id

theorem bracket_eq (state : LexState) {symbol : Symbol}
    (noCurly : symbol ≠ .leftCurly ∧ symbol ≠ .rightCurly) :
    state.bracket symbol =
      (.symbol symbol, { state with layout := brackets symbol state.layout }) := by
  cases symbol with
  | leftCurly => exact absurd rfl noCurly.1
  | rightCurly => exact absurd rfl noCurly.2
  | _ => rfl

theorem coded_symbol {symbol : Symbol} (noCurly : symbol ≠ .leftCurly ∧ symbol ≠ .rightCurly) :
    (Lexeme.symbol symbol).Coded (brackets symbol) := by
  have characters : (Lexeme.symbol symbol).text.toList = symbol.characters := by
    simp [Lexeme.symbol, Symbol.spelling]
  refine ⟨?_, rfl, ?_⟩
  · rw [characters]
    rintro _ ⟨c, rest, rfl, rfl | rfl⟩
    · cases symbol <;> exact ⟨rfl, rfl, List.cons_ne_nil _ _, by simp [Symbol.characters]⟩
    · cases symbol <;> exact ⟨rfl, rfl, List.cons_ne_nil _ _, by simp [Symbol.characters]⟩
  · rw [characters]
    intro state follow setOff input
    obtain ⟨c, more, equality⟩ : ∃ c more, symbol.characters = c :: more :=
      List.exists_cons_of_ne_nil symbol.characters_ne_nil
    have first : c ≠ '"' ∧ c ≠ '\'' ∧ c ≠ '$' ∧ (c = '/' → more = [] ∨ more = ['=']) := by
      cases symbol <;> (injection equality with same others; subst same others; decide)
    have noComment : c = '/' → (more ++ follow).head? ≠ some '*' := by
      intro slash
      rcases first.2.2.2 slash with rfl | rfl
      · obtain ⟨other, rest, rfl, rfl | rfl⟩ := setOff
        · simp
        · simp
      · simp
    have plain : state.codeToken = state.plainToken c (more ++ follow) := by
      apply LexState.codeToken_eq_plainToken _ ⟨first.1, first.2.1⟩ noComment
      · exact fun dollar => absurd dollar first.2.2.1
      · rw [input, equality, List.cons_append]
    refine ⟨⟨.symbol symbol, String.ofList symbol.characters,
      state.spanOf ⟨symbol.characters, follow⟩⟩, rfl, ?_⟩
    have noNumeral := Scan.numeral?_symbol state.atOperand symbol setOff
    have noWord := Scan.word?_symbol symbol follow
    have found := Scan.symbol?_append symbol setOff
    rw [equality, List.cons_append] at noNumeral noWord found
    rw [plain, LexState.plainToken]
    simp only [noNumeral, noWord, found, bracket_eq state noCurly, ← equality]
    rfl

theorem coded_integer {value : Nat} (inRange : value ≤ 9223372036854775807) :
    (integer value).Coded id := by
  have characters : (integer value).text.toList = Nat.toDigits 10 value := by
    simp [integer]
  obtain ⟨c, more, equality⟩ : ∃ c more, Nat.toDigits 10 value = c :: more :=
    List.exists_cons_of_ne_nil Nat.toDigits_ne_nil
  have digit : Text.isDigit c = true :=
    Text.isDigit_of_mem_toDigits (equality ▸ List.mem_cons_self)
  have first : ∀ other : Char, Text.isDigit other = false → c ≠ other := by
    rintro other fails rfl
    rw [digit] at fails
    contradiction
  refine ⟨?_, rfl, ?_⟩
  · intro follow _
    rw [characters, equality]
    apply Scan.opens_of_first
    simp only [List.mem_cons, List.not_mem_nil, or_false, not_or]
    exact ⟨first _ rfl, first _ rfl, first _ rfl, first _ rfl, first _ rfl, first _ rfl,
      first _ rfl, first _ rfl⟩
  · rw [characters]
    intro state follow setOff input
    have found := Scan.numeral?_digits state.atOperand (Nat.toDigits 10 value)
      Nat.toDigits_ne_nil (fun _ => Text.isDigit_of_mem_toDigits) setOff
    rw [equality, List.cons_append] at found input
    refine ⟨⟨.integer value, String.ofList (Nat.toDigits 10 value),
      state.spanOf ⟨Nat.toDigits 10 value, follow⟩⟩, rfl, ?_⟩
    rw [LexState.codeToken_eq_plainToken input ⟨first _ rfl, first _ rfl⟩
      (fun slash => absurd slash (first _ rfl)) (fun dollar => absurd dollar (first _ rfl))]
    unfold LexState.plainToken
    simp only [found, ← equality, Scan.evaluate_toDigits inRange]
    rfl

theorem coded_char (c : Char) : (char c).Coded id := by
  have characters : (char c).text.toList = '\'' :: (Scan.escaped c ++ ['\'']) := by
    simp [char]
  refine ⟨?_, rfl, ?_⟩
  · intro follow _
    rw [characters]
    exact Scan.opens_of_first (by decide)
  · rw [characters]
    intro state follow _ input
    refine ⟨⟨.char c, (char c).text, state.spanOf ⟨'\'' :: (Scan.escaped c ++ ['\'']), follow⟩⟩,
      rfl, ?_⟩
    have body := Scan.charBody_escaped c follow
    rw [List.cons_append, List.append_assoc, List.singleton_append] at input
    have quote : state.codeToken = state.characterLiteral (Scan.escaped c ++ '\'' :: follow) := by
      unfold LexState.codeToken
      rw [input]
      rfl
    have decoded := LexState.decode_escaped (state.position.advance ['\'']) [c]
    rw [quote, LexState.characterLiteral, body]
    rw [List.map_singleton] at decoded
    simp only [decoded]
    rfl

end Lexeme

end Offside
