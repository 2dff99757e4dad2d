import Offside.Proofs.Lexer.Requests
import Offside.Proofs.Lexer.StepCases

/-!
Strings among the tokens. The tokens of a text are words of a grammar in which a string is its
start, its parts and its end, and an interpolation is a part of a string that holds code. A lexer
that stopped anywhere knows from its modes how such a word could go on.
-/

namespace Offside

open LexStream LexMode

/-! ## Words -/

mutual

/-- Kinds of tokens of code, in which every string is closed. -/
inductive CodeWord : List Kind → Prop
  | nil : CodeWord []
  | cons {kind : Kind} {word : List Kind} (ofCode : kind.isOfString = false)
    (code : CodeWord word) : CodeWord (kind :: word)
  | string {parts word : List Kind} (inside : StringWord false parts) (code : CodeWord word) :
    CodeWord (.stringStart :: (parts ++ .stringEnd :: word))

/-- Kinds of tokens directly inside of a string, where a fragment may have come just before. No
fragment comes just behind another. -/
inductive StringWord : Bool → List Kind → Prop
  | nil (afterFragment : Bool) : StringWord afterFragment []
  | fragment {parts : List Kind} (text : String) (inside : StringWord true parts) :
    StringWord false (.stringFragment text :: parts)
  | interpolation (afterFragment : Bool) {word parts : List Kind} (code : CodeWord word)
    (inside : StringWord false parts) :
    StringWord afterFragment (.interpolationStart :: (word ++ .interpolationEnd :: parts))

end

namespace LexMode

/-- Strings and interpolations in turn. What is outermost is a string. -/
inductive Alternating : List LexMode → Prop
  | code : Alternating []
  | string (start : Position) {outer : List LexMode} (alternating : Alternating outer)
    (outside : ¬ InString outer) : Alternating (.string start :: outer)
  | interpolation (braces : Nat) {outer : List LexMode} (alternating : Alternating outer)
    (inside : InString outer) : Alternating (.interpolation braces :: outer)

/-- The words that close everything open and go on with code. Directly inside of a string a
fragment may have come just before. -/
def Completes : List LexMode → Bool → List Kind → Prop
  | [], _, word => CodeWord word
  | .string _ :: outer, afterFragment, word =>
    ∃ parts rest, word = parts ++ .stringEnd :: rest ∧ StringWord afterFragment parts ∧
      Completes outer false rest
  | .interpolation _ :: outer, _, word =>
    ∃ code rest, word = code ++ .interpolationEnd :: rest ∧ CodeWord code ∧
      Completes outer false rest

theorem not_inString_nil : ¬ InString [] := by
  rintro ⟨start, outer, modes⟩
  contradiction

theorem not_inString_interpolation (braces : Nat) (outer : List LexMode) :
    ¬ InString (.interpolation braces :: outer) := by
  rintro ⟨start, others, modes⟩
  exact absurd (List.cons.inj modes).1 LexMode.noConfusion

theorem Alternating.inside {braces : Nat} {outer : List LexMode}
    (alternating : Alternating (.interpolation braces :: outer)) :
    Alternating outer ∧ InString outer := by
  cases alternating with
  | interpolation _ alternating inside => exact ⟨alternating, inside⟩

theorem Alternating.outside {start : Position} {outer : List LexMode}
    (alternating : Alternating (.string start :: outer)) :
    Alternating outer ∧ ¬ InString outer := by
  cases alternating with
  | string _ alternating outside => exact ⟨alternating, outside⟩

theorem exists_completes (modes : List LexMode) : ∃ word, ∀ afterFragment,
    Completes modes afterFragment word := by
  induction modes with
  | nil => exact ⟨[], fun _ => .nil⟩
  | cons mode outer inductionHypothesis =>
    obtain ⟨rest, completes⟩ := inductionHypothesis
    cases mode with
    | string start =>
      exact ⟨.stringEnd :: rest, fun _ => ⟨[], rest, rfl, .nil _, completes false⟩⟩
    | interpolation braces =>
      exact ⟨.interpolationEnd :: rest, fun _ => ⟨[], rest, rfl, .nil, completes false⟩⟩

variable {modes outer : List LexMode} {afterFragment : Bool} {word : List Kind}

/-- Only directly inside of a string does it matter what came before. -/
theorem Completes.of_outside {other : Bool} (outside : ¬ InString modes)
    (completes : Completes modes other word) : Completes modes afterFragment word := by
  rcases modes with _ | ⟨_ | braces, outer⟩
  · exact completes
  · exact absurd ⟨_, _, rfl⟩ outside
  · exact completes

theorem Completes.cons {kind : Kind} (outside : ¬ InString modes)
    (ofCode : kind.isOfString = false) (completes : Completes modes afterFragment word) :
    Completes modes afterFragment (kind :: word) := by
  rcases modes with _ | ⟨_ | braces, outer⟩
  · exact .cons ofCode completes
  · exact absurd ⟨_, _, rfl⟩ outside
  · obtain ⟨code, rest, rfl, isCode, completes⟩ := completes
    exact ⟨kind :: code, rest, rfl, .cons ofCode isCode, completes⟩

theorem Completes.append {plain : List Kind} (outside : ¬ InString modes)
    (ofCode : ∀ kind ∈ plain, kind.isOfString = false)
    (completes : Completes modes afterFragment word) :
    Completes modes afterFragment (plain ++ word) := by
  induction plain with
  | nil => exact completes
  | cons kind plain inductionHypothesis =>
    refine (inductionHypothesis fun other member => ?_).cons outside (ofCode kind List.mem_cons_self)
    exact ofCode other (List.mem_cons_of_mem _ member)

theorem Completes.stringStart {start : Position} (outside : ¬ InString modes)
    (completes : Completes (.string start :: modes) false word) :
    Completes modes afterFragment (.stringStart :: word) := by
  obtain ⟨parts, rest, rfl, inside, completes⟩ := completes
  rcases modes with _ | ⟨_ | braces, outer⟩
  · exact .string inside completes
  · exact absurd ⟨_, _, rfl⟩ outside
  · obtain ⟨code, others, rfl, isCode, completes⟩ := completes
    refine ⟨.stringStart :: (parts ++ .stringEnd :: code), others, ?_, .string inside isCode, completes⟩
    simp

theorem Completes.stringEnd {start : Position} (completes : Completes outer false word) :
    Completes (.string start :: outer) afterFragment (.stringEnd :: word) :=
  ⟨[], word, rfl, .nil _, completes⟩

theorem Completes.interpolationEnd {braces : Nat} (completes : Completes outer false word) :
    Completes (.interpolation braces :: outer) afterFragment (.interpolationEnd :: word) :=
  ⟨[], word, rfl, .nil, completes⟩

theorem Completes.interpolationStart {braces : Nat} {other : Bool} (inside : InString modes)
    (completes : Completes (.interpolation braces :: modes) other word) :
    Completes modes afterFragment (.interpolationStart :: word) := by
  obtain ⟨start, outer, rfl⟩ := inside
  obtain ⟨code, _, rfl, isCode, parts, rest, rfl, isParts, completes⟩ := completes
  refine ⟨.interpolationStart :: (code ++ .interpolationEnd :: parts), rest, ?_,
    .interpolation _ isCode isParts, completes⟩
  simp

theorem Completes.fragment {text : String} (inside : InString modes)
    (completes : Completes modes true word) :
    Completes modes false (.stringFragment text :: word) := by
  obtain ⟨start, outer, rfl⟩ := inside
  obtain ⟨parts, rest, rfl, isParts, completes⟩ := completes
  exact ⟨.stringFragment text :: parts, rest, rfl, .fragment text isParts, completes⟩

end LexMode

/-! ## Steps -/

namespace LexState

/-- The last token was a fragment. -/
def afterFragment (state : LexState) : Bool :=
  match state.lastKind with
  | some (.stringFragment _) => true
  | _ => false

/-- The words that what was yielded so far can be completed by. -/
def Completes (state : LexState) (word : List Kind) : Prop :=
  LexMode.Completes state.modes state.afterFragment word

/-- What the modes of a lexer and its last token say of the text to come: a fragment of a string
took all that can be in it. -/
structure Fits (state : LexState) : Prop where
  alternating : Alternating state.modes
  whole : state.finished = false → InString state.modes → state.afterFragment = true →
    Scan.stringPiece? state.rest = none

/-- A step fits into the strings: the words that complete what it leads to, with the tokens of the
step before them, complete what it starts from. -/
structure FitsInto (before : LexState) (step : LexStep) : Prop where
  fits : step.2.Fits
  word : ∀ word, step.2.Completes word → before.Completes (kinds step.1 ++ word)
  closed : .endOfInput ∈ kinds step.1 → step.2.modes = []

variable {before state after line : LexState} {step : LexStep} {kind : Kind} {split : Scan.Split}
  {errors : List LexError}

theorem kinds_yield (state : LexState) (kind : Kind) (split : Scan.Split) (errors : List LexError) :
    kinds (state.yield kind split errors).1 = [kind] := by
  rw [kinds, yield, tokenOf, tokens_token, tokens_map_error]
  rfl

theorem kinds_map_structural (state : LexState) (found : List Kind) :
    kinds (found.map state.structural) = found := by
  rw [kinds, tokens_map_structural, List.map_map]
  exact List.map_id found

theorem kinds_finish_of_closed (closed : state.openString? = none) :
    kinds state.finish.1 = List.replicate state.layout.depth .dedent ++ [.endOfInput] := by
  rw [finish_of_closed closed, kinds_map_structural]

/-- Where no string is open, nothing is. -/
theorem modes_eq_nil_of_alternating (alternating : Alternating state.modes)
    (closed : state.openString? = none) : state.modes = [] := by
  unfold openString? at closed
  cases modes : state.modes with
  | nil => rfl
  | cons mode outer =>
    rw [modes] at closed alternating
    cases mode with
    | string start => exact absurd closed (Option.some_ne_none _)
    | interpolation braces =>
      obtain ⟨start, others, rfl⟩ := alternating.inside.2
      exact absurd closed (Option.some_ne_none _)

theorem fits_of_outside (alternating : Alternating state.modes) (outside : ¬ InString state.modes) :
    state.Fits :=
  ⟨alternating, fun _ inside => absurd inside outside⟩

theorem fits_of_finished (alternating : Alternating state.modes) (ended : state.finished = true) :
    state.Fits :=
  ⟨alternating, fun running => absurd (running.symm.trans ended) Bool.false_ne_true⟩

theorem afterFragment_yield_of_ne (state : LexState) (split : Scan.Split) (errors : List LexError)
    (different : ∀ text, kind ≠ .stringFragment text) : (state.yield kind split errors).2.afterFragment = false := by
  unfold afterFragment
  split
  next text found => exact absurd (Option.some.inj found) (different text)
  next => rfl

/-- A token that is no fragment fits if the words do. -/
theorem fitsInto_yield (alternating : Alternating after.modes)
    (different : ∀ text, kind ≠ .stringFragment text) (notEnd : kind ≠ .endOfInput)
    (word : ∀ word, LexMode.Completes after.modes false word → state.Completes (kind :: word)) :
    FitsInto state (after.yield kind split errors) := by
  have noFragment := after.afterFragment_yield_of_ne split errors different
  refine ⟨⟨alternating, fun _ _ isFragment => ?_⟩, fun others completes => ?_, fun isEnd => ?_⟩
  · exact absurd (noFragment.symm.trans isFragment) Bool.false_ne_true
  · rw [kinds_yield]
    unfold LexState.Completes at completes
    rw [noFragment] at completes
    exact word others completes
  · rw [kinds_yield] at isEnd
    exact absurd (List.mem_singleton.mp isEnd).symm notEnd

/-- A token of code that leaves the modes alone fits. -/
theorem fitsInto_plain (fits : Alternating state.modes) (outside : ¬ InString state.modes)
    (structural : kind.isStructural = false) (ofCode : kind.isOfString = false) :
    FitsInto state (state.yield kind split errors) := by
  refine fitsInto_yield fits ?_ ?_ fun word completes => ?_
  · rintro text rfl
    contradiction
  · rintro rfl
    contradiction
  · exact (completes.of_outside outside).cons outside ofCode

/-- A bracket counts the curly brackets of an interpolation, or closes it, and leaves the modes
alone otherwise. -/
theorem bracket_modes (state : LexState) (symbol : Symbol) :
    (∃ outer, state.modes = .interpolation 0 :: outer ∧
      (state.bracket symbol).1 = .interpolationEnd ∧ (state.bracket symbol).2.modes = outer) ∨
    (state.bracket symbol).1 = .symbol symbol ∧
      ((state.bracket symbol).2.modes = state.modes ∨
        ∃ braces more outer, state.modes = .interpolation braces :: outer ∧
          (state.bracket symbol).2.modes = .interpolation more :: outer) := by
  obtain ⟨rest, position, modes, layout, atLineStart, lastKind, finished, endedAtLineBreak⟩ := state
  cases symbol with
  | leftCurly =>
    rcases modes with _ | ⟨_ | braces, outer⟩
    · exact Or.inr ⟨rfl, Or.inl rfl⟩
    · exact Or.inr ⟨rfl, Or.inl rfl⟩
    · exact Or.inr ⟨rfl, Or.inr ⟨braces, braces + 1, outer, rfl, rfl⟩⟩
  | rightCurly =>
    rcases modes with _ | ⟨_ | ⟨_ | braces⟩, outer⟩
    · exact Or.inr ⟨rfl, Or.inl rfl⟩
    · exact Or.inr ⟨rfl, Or.inl rfl⟩
    · exact Or.inl ⟨outer, rfl, rfl, rfl⟩
    · exact Or.inr ⟨rfl, Or.inr ⟨braces + 1, braces, outer, rfl, rfl⟩⟩
  | _ => exact Or.inr ⟨rfl, Or.inl rfl⟩

theorem fitsInto_bracket (alternating : Alternating state.modes) (outside : ¬ InString state.modes)
    (symbol : Symbol) : FitsInto state
      ((state.bracket symbol).2.yield (state.bracket symbol).1 split errors) := by
  rcases bracket_modes state symbol with ⟨outer, modes, isEnd, after⟩ | ⟨isSymbol, same | counted⟩
  · rw [isEnd]
    rw [modes] at alternating
    refine fitsInto_yield (after ▸ alternating.inside.1) (fun _ => Kind.noConfusion)
      Kind.noConfusion fun word completes => ?_
    unfold LexState.Completes
    rw [modes]
    exact (after ▸ completes).interpolationEnd
  · rw [isSymbol]
    refine fitsInto_yield (same ▸ alternating) (fun _ => Kind.noConfusion) Kind.noConfusion
      fun word completes => ?_
    rw [same] at completes
    exact (completes.of_outside outside).cons outside rfl
  · obtain ⟨braces, more, outer, modes, after⟩ := counted
    rw [isSymbol]
    rw [modes] at alternating outside
    refine fitsInto_yield ?_ (fun _ => Kind.noConfusion) Kind.noConfusion fun word completes => ?_
    · exact after ▸ .interpolation more alternating.inside.1 alternating.inside.2
    · unfold LexState.Completes
      rw [after] at completes
      rw [modes]
      exact Completes.cons outside rfl completes

theorem fitsInto_takesCode (alternating : Alternating state.modes) (outside : ¬ InString state.modes)
    (takes : TakesCode state kind split errors after) :
    FitsInto state (after.yield kind split errors) := by
  have plain {kind : Kind} {split : Scan.Split} {errors : List LexError} (isPlain : kind.IsPlain) :
      FitsInto state (state.yield kind split errors) :=
    fitsInto_plain alternating outside isPlain.structural isPlain.ofString
  cases takes with
  | stringStart splitOf spelled =>
    exact fitsInto_yield (.string _ alternating outside) (fun _ => Kind.noConfusion)
      Kind.noConfusion fun word completes => completes.stringStart outside
  | character => exact fitsInto_plain alternating outside rfl rfl
  | wrongCharacter => exact fitsInto_plain alternating outside rfl rfl
  | number => exact plain (Kind.isPlain_evaluate _)
  | word _ found =>
    obtain ⟨split, _, rfl⟩ := Option.map_eq_some_iff.mp found
    exact plain (Kind.isPlain_ofWord _)
  | symbol => exact fitsInto_bracket alternating outside _

/-- A fragment takes all pieces of text there are, so that none is left for another fragment. -/
theorem stringPiece?_rest_stringBody (input : List Char) :
    Scan.stringPiece? (Scan.stringBody input).rest = none := by
  fun_induction Scan.stringBody input with
  | case1 input nothing => exact nothing
  | case2 input piece found more inductionHypothesis => exact inductionHypothesis

theorem stringBody_of_stringPiece? {input : List Char} (nothing : Scan.stringPiece? input = none) :
    (Scan.stringBody input).value = [] := by
  rw [Scan.stringBody.eq_def]
  split
  next => rfl
  next found =>
    rw [nothing] at found
    contradiction

theorem fitsInto_takesPart (fits : state.Fits) (running : state.finished = false)
    (inside : InString state.modes) (takes : TakesPart state kind split errors after) :
    FitsInto state (after.yield kind split errors) := by
  have alternating := fits.alternating
  obtain ⟨start, outer, modes⟩ := inside
  rw [modes] at alternating
  cases takes with
  | stringEnd =>
    refine fitsInto_yield ?_ (fun _ => Kind.noConfusion) Kind.noConfusion fun word completes => ?_
    · rw [modes]
      exact alternating.outside.1
    · unfold LexState.Completes
      rw [modes] at completes ⊢
      exact completes.stringEnd
  | interpolationStart =>
    refine fitsInto_yield ?_ (fun _ => Kind.noConfusion) Kind.noConfusion fun word completes => ?_
    · exact .interpolation 0 (modes ▸ alternating) ⟨start, outer, modes⟩
    · exact completes.interpolationStart ⟨start, outer, modes⟩
  | fragment nonempty =>
    refine ⟨⟨fits.alternating, fun _ _ _ => stringPiece?_rest_stringBody _⟩,
      fun word completes => ?_, fun isEnd => ?_⟩
    · have noFragment : state.afterFragment = false := by
        by_contra isFragment
        exact nonempty (stringBody_of_stringPiece?
          (fits.whole running ⟨start, outer, modes⟩ (eq_true_of_ne_false isFragment)))
      rw [kinds_yield]
      unfold LexState.Completes
      rw [noFragment]
      exact Completes.fragment ⟨start, outer, modes⟩ completes
    · rw [kinds_yield] at isEnd
      exact absurd (List.mem_singleton.mp isEnd) Kind.noConfusion

theorem fitsInto_finish (alternating : Alternating state.modes) (closed : state.openString? = none) :
    FitsInto state state.finish := by
  have modes := modes_eq_nil_of_alternating alternating closed
  have outside : ¬ InString state.modes := modes ▸ not_inString_nil
  unfold finish
  rw [closed]
  refine ⟨fits_of_finished alternating rfl, fun word completes => ?_, fun _ => modes⟩
  refine Completes.append outside (fun kind member => ?_) (Completes.of_outside outside completes)
  dsimp only [Layout.finish] at member
  rw [kinds_append] at member
  rcases List.mem_append.mp member with isDedent | isEnd
  · rw [← List.map_replicate, kinds, tokens_map_structural, List.map_map] at isDedent
    obtain ⟨_, inKinds, rfl⟩ := List.mem_map.mp isDedent
    exact List.eq_of_mem_replicate inKinds ▸ rfl
  · exact List.mem_singleton.mp isEnd ▸ rfl

theorem fitsInto_fails {middle : LexState} {construct : Unterminated} {span : Span}
    (alternating : Alternating state.modes) (fails : Fails state middle construct span) :
    FitsInto state (middle.fail construct span) := by
  refine ⟨fits_of_finished ?_ rfl, fun word completes => ?_, fun isEnd => ?_⟩
  · exact fails.modes ▸ alternating
  · cases fails <;> exact completes
  · exact absurd isEnd List.not_mem_nil

theorem fitsInto_reads (alternating : Alternating state.modes) (outside : ¬ InString state.modes)
    (reads : Reads state step) : FitsInto state step := by
  cases reads with
  | code _ takes => exact fitsInto_takesCode alternating outside takes
  | part inside _ => exact absurd inside outside
  | unexpected _ _ =>
    exact ⟨fits_of_outside alternating outside, fun _ completes => completes,
      fun isEnd => absurd isEnd List.not_mem_nil⟩
  | ends _ closed => exact fitsInto_finish alternating closed
  | fails fails => exact fitsInto_fails alternating fails

theorem fitsInto_reads_inString (fits : state.Fits) (running : state.finished = false)
    (inside : InString state.modes) (reads : Reads state step) : FitsInto state step := by
  cases reads with
  | code outside _ => exact absurd inside outside
  | part _ takes => exact fitsInto_takesPart fits running inside takes
  | unexpected outside _ => exact absurd inside outside
  | ends _ closed => exact fitsInto_finish fits.alternating closed
  | fails fails => exact fitsInto_fails fits.alternating fails

/-- Passing over a gap changes nothing about strings. -/
theorem FitsInto.of_outside (into : FitsInto after step) (same : after.modes = before.modes)
    (outside : ¬ InString before.modes) : FitsInto before step := by
  refine ⟨into.fits, fun word completes => ?_, into.closed⟩
  have completed := into.word word completes
  unfold LexState.Completes at completed ⊢
  rw [same] at completed
  exact completed.of_outside outside

theorem kinds_indentation (state : LexState) (member : kind ∈ kinds state.indentation.1) :
    kind = .newline ∨ kind = .indent ∨ kind = .dedent := by
  rw [kinds, tokens_indentation, List.map_map] at member
  obtain ⟨_, inKinds, rfl⟩ := List.mem_map.mp member
  exact layout_of_mem_lineKinds inKinds

theorem not_mem_kinds_indentation (state : LexState) : .endOfInput ∉ kinds state.indentation.1 := by
  intro member
  rcases state.kinds_indentation member with isLayout | isLayout | isLayout
  · contradiction
  · contradiction
  · contradiction

/-- The layout of a line fits in front of its first token. -/
theorem FitsInto.after_indentation (into : FitsInto after step)
    (same : after.modes = before.modes) (outside : ¬ InString before.modes) :
    FitsInto before (state.indentation.1 ++ step.1, step.2) := by
  have code (kind : Kind) (member : kind ∈ kinds state.indentation.1) :
      kind.isOfString = false ∧ kind ≠ .endOfInput := by
    rcases state.kinds_indentation member with rfl | rfl | rfl
    · exact ⟨rfl, Kind.noConfusion⟩
    · exact ⟨rfl, Kind.noConfusion⟩
    · exact ⟨rfl, Kind.noConfusion⟩
  have behind := into.of_outside same outside
  refine ⟨into.fits, fun word completes => ?_, fun isEnd => into.closed ?_⟩
  · rw [kinds_append, List.append_assoc]
    exact Completes.append outside (fun kind member => (code kind member).1)
      (behind.word word completes)
  · rw [kinds_append] at isEnd
    exact (List.mem_append.mp isEnd).resolve_left fun inLayout => (code _ inLayout).2 rfl

theorem fitsInto_stepped (fits : state.Fits) (running : state.finished = false)
    (stepped : Stepped state step) : FitsInto state step := by
  have code {middle : LexState} {step : LexStep} (reads : Reads middle step)
      (same : middle.modes = state.modes) (outside : ¬ InString state.modes) :
      FitsInto middle step :=
    fitsInto_reads (same ▸ fits.alternating) (same ▸ outside) reads
  cases stepped with
  | inString inside reads => exact fitsInto_reads_inString fits running inside reads
  | inBrackets outside _ reads => exact (code reads rfl outside).of_outside rfl outside
  | inLine outside _ _ _ reads => exact (code reads rfl outside).of_outside rfl outside
  | blank outside _ starts reads =>
    exact (code reads starts.modes outside).of_outside starts.modes outside
  | line outside _ starts _ reads =>
    exact (code reads starts.modes outside).after_indentation starts.modes outside

theorem fitsInto_proceed (cancelled : Bool) (fits : state.Fits) (running : state.finished = false) :
    FitsInto state (state.proceed cancelled) := by
  cases cancelled with
  | true =>
    exact ⟨fits_of_finished fits.alternating rfl, fun _ completes => completes,
      fun isEnd => absurd isEnd List.not_mem_nil⟩
  | false => exact fitsInto_stepped fits running (stepped state)

end LexState

/-! ## Requests -/

/-- Some items, with the state behind them, as the start of a word. -/
structure Spells (items : List LexItem) (state : LexState) : Prop where
  fits : state.Fits
  word : ∀ word, state.Completes word → CodeWord (kinds items ++ word)
  endless : state.finished = false → Endless items
  closed : .endOfInput ∈ kinds items → state.modes = []

theorem spells_proceed (cancelled : Bool) {items : List LexItem} {state : LexState}
    (running : state.finished = false) (spells : Spells items state) :
    Spells (items ++ (state.proceed cancelled).1) (state.proceed cancelled).2 := by
  have into := LexState.fitsInto_proceed cancelled spells.fits running
  have ending := (LexState.stepShape_proceed cancelled running).ending
  have endless := spells.endless running
  refine ⟨into.fits, fun word completes => ?_, fun goesOn => ?_, fun isEnd => ?_⟩
  · rw [kinds_append, List.append_assoc]
    exact spells.word _ (into.word word completes)
  · rw [if_neg (by simp [goesOn])] at ending
    exact endless.append ending.2
  · rw [kinds_append] at isEnd
    exact into.closed ((List.mem_append.mp isEnd).resolve_left (not_mem_kinds_of_endless endless))

/-- What a lexer of a text has to do with strings after some requests for items. -/
structure StringShape (lexer : Lexer) (requests : List Bool) : Prop where
  /-- It is inside of strings and interpolations in turn. -/
  alternating : Alternating (lexer.afterRequests requests).state.modes
  /-- The tokens yielded so far are the start of a word in which all strings are closed. -/
  nested : ∃ more, CodeWord (kinds (lexer.answers requests) ++ more)
  /-- Once the end of input was yielded, they are such a word. -/
  balanced : .endOfInput ∈ kinds (lexer.answers requests) →
    CodeWord (kinds (lexer.answers requests))

/-- The strings of every text are nested, wherever its lexer stops. -/
theorem stringShape_ofSource (settings : Settings) (source : List Char) (requests : List Bool) :
    StringShape (.ofSource settings.tabWidth source) requests := by
  have start : Spells [] (.ofSource settings.tabWidth source) := by
    unfold LexState.ofSource
    exact ⟨⟨.code, fun _ inside => absurd inside not_inString_nil⟩, fun _ completes => completes,
      fun _ _ member => absurd member List.not_mem_nil, fun isEnd => absurd isEnd List.not_mem_nil⟩
  have spells := Lexer.drawn_induction
    (fun cancelled _ _ running spells => spells_proceed cancelled running spells) requests start
  rw [Lexer.drawn] at spells
  refine ⟨spells.fits.alternating, ?_, fun isEnd => ?_⟩
  · obtain ⟨word, completes⟩ := exists_completes
      ((Lexer.ofSource settings.tabWidth source).afterRequests requests).state.modes
    have closed := spells.word word (completes _)
    rw [kinds_append, List.append_assoc] at closed
    exact ⟨_, closed⟩
  · have closed := spells.closed (by
      rw [kinds_append]
      exact List.mem_append_left _ isEnd)
    have word := spells.word [] (by
      unfold LexState.Completes
      rw [closed]
      exact .nil)
    rwa [Lexer.pending_eq_nil_of_end rfl isEnd, List.append_nil, List.append_nil] at word

end Offside
