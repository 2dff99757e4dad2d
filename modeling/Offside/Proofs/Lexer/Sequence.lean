import Offside.Proofs.Lexer.Lexeme

/-!
Sequences of lexemes as they are written. Inside of a line, code with nested brackets and strings
is read back lexeme by lexeme, and the lexer is left as it was but for its place.
-/

namespace Offside

open Lexeme

theorem Lexeme.Coded.spaced_eq {lexeme : Lexeme} {adjust : Layout → Layout}
    (coded : lexeme.Coded adjust) : lexeme.spaced = ' ' :: lexeme.text.toList := by
  rw [spaced, coded.isCode]
  rfl

namespace LexState

/-- Up to a state, the items are tokens with the given lexemes. -/
def Shows (items : List LexItem) (lexemes : List Lexeme) (after : LexState) : Prop :=
  ∃ tokens : List Token, tokens.map Token.lexeme = lexemes ∧
    items = tokens.map LexItem.token ++ after.stream false

/-- From one state to another exactly the given lexemes are yielded. -/
def Yields (before : LexState) (lexemes : List Lexeme) (after : LexState) : Prop :=
  Shows (before.stream false) lexemes after

/-- The same for a step and all that comes after it. -/
def Flows (step : LexStep) (lexemes : List Lexeme) (after : LexState) : Prop :=
  Shows (step.1 ++ step.2.stream false) lexemes after

/-- The text is inside of a line of code, or inside of brackets. -/
structure Coding (state : LexState) : Prop where
  running : state.finished = false
  noString : ∀ start outer, state.modes ≠ .string start :: outer
  inLine : state.layout.inBrackets = true ∨ state.atLineStart = false

theorem Shows.trans {items : List LexItem} {middle after : LexState} {left right : List Lexeme}
    (first : Shows items left middle) (later : Yields middle right after) :
    Shows items (left ++ right) after := by
  obtain ⟨tokensLeft, lexemesLeft, itemsLeft⟩ := first
  obtain ⟨tokensRight, lexemesRight, itemsRight⟩ := later
  refine ⟨tokensLeft ++ tokensRight, ?_, ?_⟩
  · rw [List.map_append, lexemesLeft, lexemesRight]
  · rw [itemsLeft, itemsRight, List.map_append, List.append_assoc]

theorem yields_nil (state : LexState) : Yields state [] state :=
  ⟨[], rfl, rfl⟩

theorem flows_token (token : Token) (after : LexState) :
    Flows ([.token token], after) [token.lexeme] after :=
  ⟨[token], rfl, rfl⟩

theorem yields_of_flows {before after : LexState} {lexemes : List Lexeme}
    (running : before.finished = false) (flows : Flows before.step lexemes after) :
    Yields before lexemes after := by
  rw [Yields, stream_of_running false running]
  exact flows

theorem yields_of_step {before after : LexState} {token : Token}
    (running : before.finished = false) (step : before.step = ([.token token], after)) :
    Yields before [token.lexeme] after :=
  yields_of_flows running (step ▸ flows_token token after)

/-! ## Tokens of code -/

theorem Coding.withPlace {state : LexState} (coding : Coding state) (rest : List Char)
    (position : Position) (lastKind : Option Kind) :
    Coding { state with rest, position, lastKind } :=
  ⟨coding.running, coding.noString, coding.inLine⟩

theorem Coding.inBrackets {state : LexState} (coding : Coding state) :
    Coding { state with layout := state.layout.openBracket } :=
  ⟨coding.running, coding.noString, Or.inl (decide_eq_true (Nat.succ_pos _))⟩

/-- After a space, the next token is the one of the code after it. -/
theorem step_space {state : LexState} (coding : Coding state) {input : List Char}
    (rest : state.rest = ' ' :: input) (opens : Scan.Opens input) :
    state.step = { state with
      rest := input
      position := state.position.advance [' '] }.codeToken := by
  unfold step
  split
  next start outer modes => exact absurd modes (coding.noString start outer)
  next =>
    unfold code
    split
    next =>
      rw [rest, Scan.wrapped_space opens]
      rfl
    next outside =>
      have notAtStart : state.atLineStart = false :=
        coding.inLine.resolve_left fun inside => outside inside
      rw [if_neg (by simp [notAtStart]), rest, Scan.trivia_space opens]
      have noBreak : Scan.lineBreak? (state.take ⟨[' '], input⟩).rest = none := opens.noBreak
      simp only [noBreak]
      rfl

theorem flows_of_coded {state : LexState} {lexeme : Lexeme} {adjust : Layout → Layout}
    (coded : lexeme.Coded adjust) {follow : List Char} (setOff : Scan.SetOff follow)
    (rest : state.rest = lexeme.text.toList ++ follow) :
    ∃ position, Flows state.codeToken [lexeme] { state with
      rest := follow, position, layout := adjust state.layout, lastKind := some lexeme.kind } := by
  obtain ⟨token, same, taken⟩ := coded.taken state follow setOff rest
  rw [taken]
  exact ⟨_, same ▸ flows_token token _⟩

theorem yields_of_coded {state : LexState} (coding : Coding state) {lexeme : Lexeme}
    {adjust : Layout → Layout} (coded : lexeme.Coded adjust) {follow : List Char}
    (setOff : Scan.SetOff follow) (rest : state.rest = lexeme.spaced ++ follow) :
    ∃ position, Yields state [lexeme] { state with
      rest := follow, position, layout := adjust state.layout, lastKind := some lexeme.kind } := by
  rw [coded.spaced_eq, List.cons_append] at rest
  have step := step_space coding rest (coded.opens follow setOff)
  obtain ⟨token, same, taken⟩ := coded.taken
    { state with
      rest := lexeme.text.toList ++ follow
      position := state.position.advance [' '] } follow setOff rfl
  exact ⟨_, same ▸ yields_of_step coding.running (step.trans taken)⟩

end LexState

/-! ## Nesting -/

mutual

/-- Code with nested brackets and strings. -/
inductive Code : List Lexeme → Prop
  | nil : Code []
  | plain {lexeme : Lexeme} {lexemes : List Lexeme} (coded : lexeme.Coded id)
      (later : Code lexemes) : Code (lexeme :: lexemes)
  | bracketed {opening closing : Lexeme} {inner lexemes : List Lexeme}
      (opens : opening.Coded Layout.openBracket) (closes : closing.Coded Layout.closeBracket)
      (inside : Code inner) (later : Code lexemes) :
      Code (opening :: (inner ++ closing :: lexemes))
  | string {parts lexemes : List Lexeme} (inside : Parts false parts) (later : Code lexemes) :
      Code (stringStart :: (parts ++ stringEnd :: lexemes))

/-- The inside of a string. No fragment follows a fragment, which is what the flag is for. -/
inductive Parts : Bool → List Lexeme → Prop
  | nil {afterFragment : Bool} : Parts afterFragment []
  | fragment {text : String} {parts : List Lexeme} (nonempty : text ≠ "")
      (later : Parts true parts) : Parts false (stringFragment text :: parts)
  | interpolation {afterFragment : Bool} {inner parts : List Lexeme} (inside : Code inner)
      (later : Parts false parts) :
      Parts afterFragment (interpolationStart :: (inner ++ interpolationEnd :: parts))

end

theorem Code.append {left right : List Lexeme} (first : Code left) (second : Code right) :
    Code (left ++ right) := by
  match first with
  | .nil => exact second
  | .plain coded later => exact .plain coded (later.append second)
  | .bracketed opens closes inside later =>
    rw [List.cons_append, List.append_assoc, List.cons_append]
    exact .bracketed opens closes inside (later.append second)
  | .string inside later =>
    rw [List.cons_append, List.append_assoc, List.cons_append]
    exact .string inside (later.append second)

theorem spacedAll_cons (lexeme : Lexeme) (lexemes : List Lexeme) :
    spacedAll (lexeme :: lexemes) = lexeme.spaced ++ spacedAll lexemes :=
  List.flatMap_cons

theorem spacedAll_append (left right : List Lexeme) :
    spacedAll (left ++ right) = spacedAll left ++ spacedAll right :=
  List.flatMap_append

/-- What follows code is set off from what is before it. -/
theorem Code.setOff {lexemes : List Lexeme} (code : Code lexemes) {follow : List Char}
    (setOff : Scan.SetOff follow) : Scan.SetOff (spacedAll lexemes ++ follow) := by
  cases code with
  | nil => exact setOff
  | plain coded later =>
    rw [spacedAll_cons, coded.spaced_eq]
    exact Scan.setOff_space _
  | bracketed opens closes inside later =>
    rw [spacedAll_cons, opens.spaced_eq]
    exact Scan.setOff_space _
  | string inside later =>
    rw [spacedAll_cons]
    exact Scan.setOff_space _

namespace LexState

/-! ## Strings -/

/-- A string opens, wherever code may stand. -/
theorem flows_stringStart {state : LexState} {follow : List Char}
    (rest : state.rest = '"' :: follow) :
    ∃ start position, Flows state.codeToken [Lexeme.stringStart] { state with
      rest := follow, position, modes := .string start :: state.modes
      lastKind := some .stringStart } := by
  have step : state.codeToken = state.stringStart ⟨['"'], follow⟩ := by
    unfold codeToken
    rw [rest]
    rfl
  rw [step]
  exact ⟨_, _, flows_token _ _⟩

theorem step_string {state : LexState} {start : Position} {outer : List LexMode}
    (modes : state.modes = .string start :: outer) : state.step = state.stringPart start := by
  unfold step
  rw [modes]

theorem yields_stringEnd {state : LexState} (running : state.finished = false) {start : Position}
    {outer : List LexMode} (modes : state.modes = .string start :: outer) {follow : List Char}
    (rest : state.rest = Lexeme.stringEnd.spaced ++ follow) :
    ∃ position, Yields state [Lexeme.stringEnd] { state with
      rest := follow, position, modes := outer, lastKind := some .stringEnd } := by
  have step : state.step =
      { state with modes := outer }.yield .stringEnd ⟨['"'], follow⟩ [] := by
    have input : state.rest = '"' :: follow := rest
    rw [step_string modes]
    unfold stringPart
    rw [input, modes]
    rfl
  exact ⟨_, yields_of_step running step⟩

theorem yields_stringFragment {state : LexState} (running : state.finished = false)
    {start : Position} {outer : List LexMode} (modes : state.modes = .string start :: outer)
    {text : String} (nonempty : text ≠ "") {follow : List Char}
    (stops : Scan.stringPiece? follow = none)
    (rest : state.rest = (Lexeme.stringFragment text).spaced ++ follow) :
    ∃ position, Yields state [Lexeme.stringFragment text] { state with
      rest := follow, position, lastKind := some (.stringFragment text) } := by
  have input : state.rest = text.toList.flatMap Scan.escaped ++ follow := by
    rw [rest]
    simp [Lexeme.spaced, Lexeme.isPart, Lexeme.stringFragment]
  have step : state.step = state.yield (.stringFragment text)
      ⟨text.toList.flatMap Scan.escaped, follow⟩ [] := by
    have body := Scan.stringBody_escaped text.toList stops
    have decoded := decode_escaped state.position text.toList
    obtain ⟨c, more, characters⟩ : ∃ c more, text.toList = c :: more := by
      apply List.exists_cons_of_ne_nil
      intro empty
      exact nonempty (String.toList_eq_nil_iff.mp empty)
    have pieces : text.toList.map Scan.escapedPiece ≠ [] := by
      rw [characters]
      exact List.cons_ne_nil _ _
    rw [step_string modes]
    unfold stringPart
    rw [input]
    split
    next quoted =>
      rw [characters, List.flatMap_cons, List.append_assoc, Scan.escaped_append] at quoted
      exact absurd (List.head_eq_of_cons_eq quoted) (by decide)
    next curly =>
      rw [characters, List.flatMap_cons, List.append_assoc, Scan.escaped_append] at curly
      exact absurd (List.head_eq_of_cons_eq curly) (by decide)
    next =>
      simp only [body, decoded, if_neg pieces, String.ofList_toList]
  exact ⟨_, yields_of_step running step⟩

theorem yields_interpolationStart {state : LexState} (running : state.finished = false)
    {start : Position} {outer : List LexMode} (modes : state.modes = .string start :: outer)
    {follow : List Char} (rest : state.rest = Lexeme.interpolationStart.spaced ++ follow) :
    ∃ position, Yields state [Lexeme.interpolationStart] { state with
      rest := follow, position, modes := .interpolation 0 :: state.modes
      layout := state.layout.openBracket, lastKind := some .interpolationStart } := by
  have step : state.step =
      { state with
        modes := .interpolation 0 :: state.modes
        layout := state.layout.openBracket }.yield .interpolationStart ⟨['\x7b'], follow⟩ [] := by
    have input : state.rest = '\x7b' :: follow := rest
    rw [step_string modes]
    unfold stringPart
    rw [input]
    rfl
  exact ⟨_, yields_of_step running step⟩

theorem yields_interpolationEnd {state : LexState} (coding : Coding state) {outer : List LexMode}
    (modes : state.modes = .interpolation 0 :: outer) {follow : List Char}
    (rest : state.rest = Lexeme.interpolationEnd.spaced ++ follow) :
    ∃ position, Yields state [Lexeme.interpolationEnd] { state with
      rest := follow, position, modes := outer
      layout := state.layout.closeBracket, lastKind := some .interpolationEnd } := by
  have opens : Scan.Opens ('\x7d' :: follow) := Scan.opens_of_first (by decide)
  have step : state.step = codeToken { state with
      rest := '\x7d' :: follow, position := state.position.advance [' '] } :=
    step_space coding rest opens
  have noNumeral (operand : Bool) : Scan.numeral? operand ('\x7d' :: follow) = none :=
    Scan.numeral?_eq_none operand rfl (by simp)
  have noWord : Scan.word? ('\x7d' :: follow) = none := rfl
  rw [codeToken_eq_plainToken rfl (by decide) (by simp) (by simp)] at step
  unfold plainToken at step
  simp only [noNumeral, noWord, Scan.symbol?_rightCurly, bracket, modes] at step
  exact ⟨_, yields_of_step coding.running step⟩

end LexState

/-- A fragment ends where the string does or where an interpolation starts. -/
theorem Parts.stringPiece?_eq_none {parts : List Lexeme} (inside : Parts true parts)
    (follow : List Char) :
    Scan.stringPiece? (spacedAll parts ++ (stringEnd.spaced ++ follow)) = none := by
  cases inside with
  | nil => rfl
  | interpolation inside later => rfl

theorem setOff_spaced {lexeme : Lexeme} {adjust : Layout → Layout} (coded : lexeme.Coded adjust)
    (follow : List Char) : Scan.SetOff (lexeme.spaced ++ follow) := by
  rw [coded.spaced_eq]
  exact Scan.setOff_space _

/-! ## Reading back -/

/-- The lexemes are yielded wherever a token may start, up to what they are set off from, and
leave nothing changed but the place. -/
def ReadsBack (lexemes : List Lexeme) : Prop :=
  ∀ (state : LexState) (follow : List Char), state.Coding → Scan.SetOff follow →
    state.rest = written lexemes ++ follow →
      ∃ position lastKind,
        LexState.Flows state.codeToken lexemes { state with rest := follow, position, lastKind }

theorem Code.spacedAll_eq {lexemes : List Lexeme} (code : Code lexemes) (nonempty : lexemes ≠ []) :
    spacedAll lexemes = ' ' :: written lexemes := by
  cases code with
  | nil => exact absurd rfl nonempty
  | plain coded later => rw [written, spacedAll_cons, coded.spaced_eq]; rfl
  | bracketed opens closes inside later => rw [written, spacedAll_cons, opens.spaced_eq]; rfl
  | string inside later => rw [written, spacedAll_cons]; rfl

theorem Code.opens {lexemes : List Lexeme} (code : Code lexemes) (nonempty : lexemes ≠ [])
    {follow : List Char} (setOff : Scan.SetOff follow) :
    Scan.Opens (written lexemes ++ follow) := by
  cases code with
  | nil => exact absurd rfl nonempty
  | plain coded later =>
    rw [written, spacedAll_cons, coded.spaced_eq, List.cons_append, List.tail_cons,
      List.append_assoc]
    exact coded.opens _ (later.setOff setOff)
  | bracketed opens closes inside later =>
    rw [written, spacedAll_cons, opens.spaced_eq, List.cons_append, List.tail_cons,
      List.append_assoc, spacedAll_append, spacedAll_cons, List.append_assoc, List.append_assoc]
    exact opens.opens _ (inside.setOff (setOff_spaced closes _))
  | string inside later =>
    rw [written, spacedAll_cons]
    exact Scan.opens_of_first (by decide)

/-- In the middle of a line there is a space before the first lexeme. -/
theorem Code.yields {lexemes : List Lexeme} (code : Code lexemes)
    (readsBack : lexemes ≠ [] → ReadsBack lexemes) (state : LexState) (coding : state.Coding)
    {follow : List Char} (setOff : Scan.SetOff follow)
    (rest : state.rest = spacedAll lexemes ++ follow) :
    ∃ position lastKind,
      LexState.Yields state lexemes { state with rest := follow, position, lastKind } := by
  by_cases nonempty : lexemes = []
  · subst nonempty
    obtain rfl : state.rest = follow := rest
    exact ⟨_, _, LexState.yields_nil state⟩
  · rw [code.spacedAll_eq nonempty, List.cons_append] at rest
    have step := LexState.step_space coding rest (code.opens nonempty setOff)
    obtain ⟨position, lastKind, flows⟩ := readsBack nonempty _ follow
      (coding.withPlace (written lexemes ++ follow) (state.position.advance [' ']) state.lastKind)
      setOff rfl
    exact ⟨position, lastKind, LexState.yields_of_flows coding.running (step ▸ flows)⟩

mutual

theorem Code.readsBack {lexemes : List Lexeme} (code : Code lexemes) (nonempty : lexemes ≠ []) :
    ReadsBack lexemes := by
  intro state follow coding setOff rest
  match code with
  | .nil => exact absurd rfl nonempty
  | @Code.plain lexeme lexemes coded later =>
    rw [written, spacedAll_cons, coded.spaced_eq, List.cons_append, List.tail_cons,
      List.append_assoc] at rest
    obtain ⟨position, first⟩ := LexState.flows_of_coded coded (later.setOff setOff) rest
    obtain ⟨last, lastKind, others⟩ := later.yields later.readsBack _
      (coding.withPlace _ position (some lexeme.kind)) setOff rfl
    exact ⟨last, lastKind, first.trans others⟩
  | @Code.bracketed opening closing inner lexemes opens closes inside later =>
    rw [written, spacedAll_cons, opens.spaced_eq, List.cons_append, List.tail_cons,
      spacedAll_append, spacedAll_cons, List.append_assoc, List.append_assoc,
      List.append_assoc] at rest
    have closingOff := setOff_spaced closes (spacedAll lexemes ++ follow)
    obtain ⟨position, first⟩ := LexState.flows_of_coded opens (inside.setOff closingOff) rest
    have bracketed := coding.inBrackets.withPlace
      (spacedAll inner ++ (closing.spaced ++ (spacedAll lexemes ++ follow))) position
      (some opening.kind)
    obtain ⟨read, readKind, middle⟩ :=
      inside.yields inside.readsBack _ bracketed closingOff rfl
    obtain ⟨closed, last⟩ := LexState.yields_of_coded (bracketed.withPlace _ read readKind) closes
      (later.setOff setOff) rfl
    obtain ⟨final, finalKind, others⟩ := later.yields later.readsBack _
      (coding.withPlace _ closed (some closing.kind)) setOff rfl
    refine ⟨final, finalKind, ?_⟩
    have whole := ((first.trans middle).trans last).trans others
    rwa [List.append_assoc, List.append_assoc] at whole
  | @Code.string parts lexemes inside later =>
    have input : state.rest =
        '"' :: (spacedAll parts ++ (stringEnd.spaced ++ (spacedAll lexemes ++ follow))) := by
      have opening : stringStart.spaced = [' ', '"'] := rfl
      rw [rest, written, spacedAll_cons, spacedAll_append, spacedAll_cons, opening]
      simp only [List.cons_append, List.nil_append, List.tail_cons, List.append_assoc]
    obtain ⟨start, position, first⟩ := LexState.flows_stringStart input
    obtain ⟨closed, closedKind, middle⟩ := inside.reads
      { state with
        rest := spacedAll parts ++ (stringEnd.spaced ++ (spacedAll lexemes ++ follow))
        position, modes := .string start :: state.modes, lastKind := some .stringStart }
      coding.running rfl rfl
    obtain ⟨final, finalKind, others⟩ := later.yields later.readsBack _
      (coding.withPlace _ closed closedKind) setOff rfl
    refine ⟨final, finalKind, ?_⟩
    have whole := (first.trans middle).trans others
    rwa [List.append_assoc, List.append_assoc] at whole

/-- The inside of a string is read back, with its end. -/
theorem Parts.reads {afterFragment : Bool} {parts : List Lexeme}
    (inside : Parts afterFragment parts) (state : LexState) (running : state.finished = false)
    {start : Position} {outer : List LexMode} (modes : state.modes = .string start :: outer)
    {follow : List Char} (rest : state.rest = spacedAll parts ++ (stringEnd.spaced ++ follow)) :
    ∃ position lastKind, LexState.Yields state (parts ++ [stringEnd]) { state with
      rest := follow, position, modes := outer, lastKind } := by
  match inside with
  | .nil =>
    obtain ⟨position, last⟩ := LexState.yields_stringEnd running modes rest
    exact ⟨position, _, last⟩
  | @Parts.fragment text parts nonempty later =>
    rw [spacedAll_cons, List.append_assoc] at rest
    have stops := later.stringPiece?_eq_none follow
    obtain ⟨position, first⟩ := LexState.yields_stringFragment running modes nonempty stops rest
    obtain ⟨last, lastKind, others⟩ := later.reads
      { state with
        rest := spacedAll parts ++ (stringEnd.spaced ++ follow)
        position, lastKind := some (.stringFragment text) } running modes rfl
    exact ⟨last, lastKind, first.trans others⟩
  | @Parts.interpolation _ inner parts inside later =>
    rw [spacedAll_cons, spacedAll_append, spacedAll_cons, List.append_assoc, List.append_assoc,
      List.append_assoc] at rest
    obtain ⟨position, first⟩ := LexState.yields_interpolationStart running modes rest
    have coding : LexState.Coding { state with
        rest := spacedAll inner ++
          (interpolationEnd.spaced ++ (spacedAll parts ++ (stringEnd.spaced ++ follow)))
        position, modes := .interpolation 0 :: state.modes, layout := state.layout.openBracket
        lastKind := some .interpolationStart } :=
      ⟨running, fun _ _ => by simp, Or.inl (decide_eq_true (Nat.succ_pos _))⟩
    obtain ⟨read, readKind, middle⟩ :=
      inside.yields inside.readsBack _ coding (Scan.setOff_space _) rfl
    obtain ⟨closed, last⟩ :=
      LexState.yields_interpolationEnd (coding.withPlace _ read readKind) rfl rfl
    obtain ⟨final, finalKind, others⟩ := later.reads
      { state with
        rest := spacedAll parts ++ (stringEnd.spaced ++ follow)
        position := closed, lastKind := some .interpolationEnd } running modes rfl
    refine ⟨final, finalKind, ?_⟩
    have whole := first.trans (middle.trans (last.trans others))
    rw [List.cons_append, List.append_assoc]
    exact whole

end

end Offside
