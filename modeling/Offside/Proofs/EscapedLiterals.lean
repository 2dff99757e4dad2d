import Offside.Proofs.Lexer.OneLine
import Offside.Proofs.Lexer.Placement
import Offside.Proofs.Scan.Writings

/-!
Literals that stand alone. However the characters of a string or of a character literal are
written, the lexer yields a literal of exactly those characters and finds nothing wrong with it.
-/

namespace Offside

/-- A text comes to the given lexemes, and nothing is wrong with it. -/
def Text.Spells (settings : Settings) (text : List Char) (lexemes : List Lexeme) : Prop :=
  (tokenize settings false text).tokens.map Token.lexeme = lexemes ∧
    (tokenize settings false text).diagnostics = []

theorem Text.spells_of_items {settings : Settings} {text : List Char} {tokens : List Token}
    (items : (Lexer.ofSource settings.tabWidth text).items false = tokens.map .token) :
    Text.Spells settings text (tokens.map Token.lexeme) := by
  have noError : (tokens.map LexItem.token).filterMap LexItem.error? = [] := by
    rw [List.filterMap_eq_nil_iff]
    intro item member
    obtain ⟨token, _, rfl⟩ := List.mem_map.mp member
    rfl
  have found : (tokens.map LexItem.token).filterMap LexItem.token? = tokens :=
    LexStream.tokens_map_token tokens
  have nothing : Diagnostic.sorted [] = [] := List.perm_nil.mp (Diagnostic.sorted_perm [])
  have whole : tokenize settings false text = ⟨tokens, []⟩ := by
    simp only [tokenize, items, found, noError, List.map_nil, nothing]
  rw [Text.Spells, whole]
  exact ⟨rfl, rfl⟩

theorem Text.not_spells_of_error {settings : Settings} {text : List Char} {error : LexError}
    (found : .error error ∈ (Lexer.ofSource settings.tabWidth text).items false)
    (lexemes : List Lexeme) : ¬Text.Spells settings text lexemes := by
  rintro ⟨_, nothing⟩
  have reported : error.toDiagnostic ∈ (tokenize settings false text).diagnostics := by
    refine (Diagnostic.sorted_perm _).mem_iff.mpr (List.mem_map_of_mem ?_)
    exact List.mem_filterMap.mpr ⟨_, found, rfl⟩
  rw [nothing] at reported
  contradiction

/-- The fragment of a string that holds the given characters, if anything is written there. -/
def Lexeme.fragment (characters text : List Char) : List Lexeme :=
  if text = [] then [] else [⟨.stringFragment (String.ofList characters), String.ofList text⟩]

namespace LexState

/-- A text whose code comes to the given lexemes. -/
theorem spells_of_flows {settings : Settings} {input : List Char} (opens : Scan.Opens input)
    {lexemes : List Lexeme}
    (flows : ∀ code : LexState, code.rest = input → AtLine code →
      ∃ position lastKind, Flows code.codeToken lexemes
        { code with rest := [], position, lastKind }) :
    Text.Spells settings input (lexemes ++ [.layout .endOfInput]) := by
  obtain ⟨tokens, same, items⟩ := @items_of_flows settings.tabWidth input false opens lexemes
    fun code rest atLine _ _ => flows code rest atLine
  exact same ▸ Text.spells_of_items items

/-! ## Strings -/

/-- What is written inside of a string, if anything is, is one fragment. -/
theorem yields_written {state : LexState} (running : state.finished = false) {start : Position}
    {outer : List LexMode} (modes : state.modes = .string start :: outer)
    {characters text follow : List Char} (nonempty : text ≠ [])
    (stops : Scan.stringPiece? follow = none)
    (writes : Scan.WritesAll Scan.stringReserved characters text)
    (rest : state.rest = text ++ follow) :
    ∃ position, Yields state [⟨.stringFragment (String.ofList characters), String.ofList text⟩]
      { state with
        rest := follow, position
        lastKind := some (.stringFragment (String.ofList characters)) } := by
  obtain ⟨splits, decodes⟩ := writes.stringBody stops
  have pieces : (Scan.stringBody (text ++ follow)).value ≠ [] := by
    intro noPiece
    cases found : Scan.stringPiece? (text ++ follow) with
    | none =>
      rw [Scan.stringBody_of_none found] at splits
      exact nonempty (congrArg Scan.Split.text splits).symm
    | some piece =>
      rw [Scan.stringBody_of_some found] at noPiece
      exact absurd noPiece (List.cons_ne_nil _ _)
  have step : state.step =
      state.yield (.stringFragment (String.ofList characters)) ⟨text, follow⟩ [] := by
    rw [step_string modes]
    unfold stringPart
    rw [rest]
    split
    next quoted =>
      rw [quoted, Scan.stringBody_of_none rfl] at pieces
      exact absurd rfl pieces
    next curly =>
      rw [curly, Scan.stringBody_of_none rfl] at pieces
      exact absurd rfl pieces
    next =>
      simp only [if_neg pieces, decodes, splits]
  exact ⟨_, yields_of_step running step⟩

theorem flows_string {state : LexState} (atLine : AtLine state)
    {characters text : List Char} (writes : Scan.WritesAll Scan.stringReserved characters text)
    (rest : state.rest = '"' :: (text ++ ['"'])) :
    ∃ position lastKind, Flows state.codeToken
        (.stringStart :: (Lexeme.fragment characters text ++ [.stringEnd]))
      { state with rest := [], position, lastKind } := by
  obtain ⟨start, opened, opening⟩ := flows_stringStart rest
  by_cases empty : text = []
  · subst empty
    obtain ⟨closed, closing⟩ := @yields_stringEnd { state with
        rest := [] ++ ['"'], position := opened, modes := .string start :: state.modes
        lastKind := some .stringStart } atLine.running _ _ rfl [] rfl
    exact ⟨closed, _, opening.trans closing⟩
  · obtain ⟨inside, middle⟩ := @yields_written { state with
        rest := text ++ ['"'], position := opened, modes := .string start :: state.modes
        lastKind := some .stringStart } atLine.running _ _ rfl _ _ ['"'] empty rfl writes rfl
    obtain ⟨closed, closing⟩ := @yields_stringEnd { state with
        rest := ['"'], position := inside, modes := .string start :: state.modes
        lastKind := some (.stringFragment (String.ofList characters)) }
      atLine.running _ _ rfl [] rfl
    rw [Lexeme.fragment, if_neg empty]
    exact ⟨closed, _, (opening.trans middle).trans closing⟩

/-! ## Characters -/

theorem flows_char {state : LexState} {c : Char} {text : List Char}
    (writes : Scan.WritesAll Scan.charReserved [c] text)
    (rest : state.rest = '\'' :: (text ++ ['\''])) :
    ∃ position lastKind,
      Flows state.codeToken [⟨.char c, String.ofList ('\'' :: (text ++ ['\'']))⟩]
        { state with rest := [], position, lastKind } := by
  have body : Scan.Decodes _ text ['\''] [c] := writes.charBody rfl
  obtain ⟨splits, decodes⟩ := body
  have quote : state.codeToken = state.characterLiteral (text ++ ['\'']) := by
    unfold codeToken
    rw [rest]
    rfl
  have taken : state.characterLiteral (text ++ ['\'']) =
      state.yield (.char c) ⟨'\'' :: (text ++ ['\'']), []⟩ [] := by
    unfold characterLiteral
    simp only [splits, decodes, List.cons_append]
  rw [quote, taken]
  exact ⟨_, _, flows_token _ _⟩

/-- A quote ends a character literal too early, and what is behind a backslash does not end it. A
line feed is behind its end. -/
theorem error_of_reserved {state : LexState} {c : Char} (reserved : c ∈ Scan.charReserved)
    (rest : state.rest = ['\'', c, '\'']) : ∃ error, .error error ∈ state.codeToken.1 := by
  have quote : state.codeToken = state.characterLiteral [c, '\''] := by
    unfold codeToken
    rw [rest]
    rfl
  rw [quote, characterLiteral]
  simp only [Scan.charReserved, List.mem_cons, List.not_mem_nil, or_false] at reserved
  obtain rfl | rfl | rfl := reserved
  · rw [Scan.charBody_of_none rfl]
    exact ⟨_, List.mem_cons_of_mem _ List.mem_cons_self⟩
  · have piece : Scan.charPiece? ['\\', '\''] = some ⟨⟨['\\', '\''], []⟩, .char '\''⟩ := by
      rw [Scan.charPiece?, if_pos rfl, Scan.escape_single (by decide) (by decide) []]
      rfl
    rw [Scan.charBody_of_some piece, Scan.charBody_of_none rfl]
    exact ⟨_, List.mem_cons_self⟩
  · rw [Scan.charBody_of_none rfl]
    exact ⟨_, List.mem_cons_self⟩

end LexState

/-- However its characters are written, a string comes to a fragment of exactly those characters,
and a character literal to its character. The characters that such a literal is said not to hold as
themselves are indeed wrong in it. -/
theorem tokenize_written (settings : Settings) :
    (∀ characters text : List Char, Scan.WritesAll Scan.stringReserved characters text →
      Text.Spells settings ('"' :: (text ++ ['"']))
        (.stringStart :: (Lexeme.fragment characters text ++ [.stringEnd, .layout .endOfInput]))) ∧
    (∀ (c : Char) (text : List Char), Scan.WritesAll Scan.charReserved [c] text →
      Text.Spells settings ('\'' :: (text ++ ['\'']))
        [⟨.char c, String.ofList ('\'' :: (text ++ ['\'']))⟩, .layout .endOfInput]) ∧
    ∀ c ∈ Scan.charReserved, ∀ lexemes, ¬Text.Spells settings ['\'', c, '\''] lexemes := by
  refine ⟨fun characters text writes => ?_, fun c text writes => ?_, fun c reserved lexemes => ?_⟩
  · have opens : Scan.Opens ('"' :: (text ++ ['"'])) := Scan.opens_of_first (by decide)
    have spells := @LexState.spells_of_flows settings _ opens _
      fun code rest atLine => LexState.flows_string atLine writes rest
    rwa [List.cons_append, List.append_assoc] at spells
  · exact LexState.spells_of_flows (Scan.opens_of_first (by decide))
      fun code rest _ => LexState.flows_char writes rest
  · have opens : Scan.Opens ['\'', c, '\''] := Scan.opens_of_first (by decide)
    obtain ⟨code, stream, rest, _⟩ :=
      LexState.stream_ofSource_of_opens settings.tabWidth opens
    obtain ⟨error, found⟩ := LexState.error_of_reserved reserved rest
    exact Text.not_spells_of_error (stream ▸ List.mem_append_left _ found) lexemes

/-- Escapes of all kinds before characters that they could go on with, in a string over two lines,
and a quote in a character literal. -/
theorem tokenize_written_dense :
    Scan.WritesAll Scan.stringReserved "A0éf😀S4\n\"\x7bq".toList
        "\\x410\\u00E9f\\u\x7b1f600\x7d\\1234\\n\\\"\\\x7b\\\r\nq".toList ∧
      Text.Spells {} ('"' ::
          ("\\x410\\u00E9f\\u\x7b1f600\x7d\\1234\\n\\\"\\\x7b\\\r\nq".toList ++ ['"']))
        (.stringStart :: (Lexeme.fragment "A0éf😀S4\n\"\x7bq".toList
          "\\x410\\u00E9f\\u\x7b1f600\x7d\\1234\\n\\\"\\\x7b\\\r\nq".toList ++
            [.stringEnd, .layout .endOfInput])) ∧
      Scan.WritesAll Scan.charReserved ['\''] "\\\n\\047".toList ∧
      Text.Spells {} ('\'' :: ("\\\n\\047".toList ++ ['\'']))
        [⟨.char '\'', String.ofList ('\'' :: ("\\\n\\047".toList ++ ['\'']))⟩,
          .layout .endOfInput] ∧
      '\'' ∈ Scan.charReserved ∧
      ¬Text.Spells {} ['\'', '\'', '\'']
        [⟨.char '\'', String.ofList ['\'', '\'', '\'']⟩, .layout .endOfInput] := by
  have string : Scan.WritesAll Scan.stringReserved "A0éf😀S4\n\"\x7bq".toList
      "\\x410\\u00E9f\\u\x7b1f600\x7d\\1234\\n\\\"\\\x7b\\\r\nq".toList :=
    .char (@Scan.Writes.byte _ _ ['4', '1'] (List.all_eq_true.mp rfl) rfl rfl) <|
    .char (.itself (by decide)) <|
    .char (@Scan.Writes.code _ _ ['0', '0', 'E', '9'] (List.all_eq_true.mp rfl) rfl rfl) <|
    .char (.itself (by decide)) <|
    .char (@Scan.Writes.braced _ _ ['1', 'f', '6', '0', '0'] (List.all_eq_true.mp rfl) (by decide)
      (by decide) rfl) <|
    .char (@Scan.Writes.octal _ _ ['1', '2', '3'] (List.all_eq_true.mp rfl) rfl rfl) <|
    .char (.itself (by decide)) <|
    .char (@Scan.Writes.letter _ _ 'n' (by decide)) <|
    .char (.backslash (by decide)) <|
    .char (.backslash (by decide)) <|
    .lineBreak (Or.inr rfl) <|
    .char (.itself (by decide)) .nil
  have character : Scan.WritesAll Scan.charReserved ['\''] "\\\n\\047".toList :=
    .lineBreak (Or.inl rfl) <|
    .char (@Scan.Writes.octal _ _ ['0', '4', '7'] (List.all_eq_true.mp rfl) rfl rfl) .nil
  have reserved : '\'' ∈ Scan.charReserved := List.mem_cons_self
  exact ⟨string, (tokenize_written {}).1 _ _ string, character,
    (tokenize_written {}).2.1 _ _ character, reserved, (tokenize_written {}).2.2 _ reserved _⟩

end Offside
