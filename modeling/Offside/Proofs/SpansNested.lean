import Offside.Proofs.Parser.SpansWithin
import Offside.Proofs.SwitchesLast

/-!
How the spans of a tree nest. Every node is a stretch of the text, between characters, that covers
its parts, and the parts stand one behind the other.
-/

namespace Offside

open LexStream ParserState Offside.Parser

/-! ## Places in a text -/

/-- The offset is one between two characters of the text, or at one of its ends. -/
def Text.IsBoundary (source : List Char) (offset : Nat) : Prop :=
  ∃ before after, source = before ++ after ∧ offset = Text.byteLength before

theorem Text.isBoundary_zero (source : List Char) : IsBoundary source 0 :=
  ⟨[], source, rfl, rfl⟩

/-- Between two boundaries there is a slice of the text. -/
theorem Text.isSome_slice? {source : List Char} {first last : Nat} (starts : IsBoundary source first)
    (ends : IsBoundary source last) (forward : first ≤ last) :
    (slice? source first last).isSome = true := by
  obtain ⟨before, after, rfl, rfl⟩ := starts
  obtain ⟨whole, rest, split, rfl⟩ := ends
  obtain ⟨text, rfl⟩ : ∃ text, whole = before ++ text := by
    rcases List.append_eq_append_iff.mp split with ⟨text, isWhole, _⟩ | ⟨more, rfl, _⟩
    · exact ⟨text, isWhole⟩
    · rw [byteLength_append] at forward
      cases more with
      | nil => exact ⟨[], by simp⟩
      | cons c more =>
        have positive := c.utf8Size_pos
        rw [byteLength] at forward
        omega
  rw [split, List.append_assoc, byteLength_append, slice?_append]
  rfl

theorem Place.Reaches.isBoundary {source : List Char} {position : Position}
    (reaches : (Place.ofSource source).Reaches position) :
    Text.IsBoundary source position.offset := by
  obtain ⟨mark, whole, offset⟩ := Place.ofSource_cases source
  obtain ⟨rest, text, split, moved⟩ := reaches
  dsimp only at split moved
  refine ⟨mark ++ text, rest, ?_, ?_⟩
  · rw [List.append_assoc, ← split]
    exact whole
  · rw [moved, Position.offset_advance, offset, Text.byteLength_append]

theorem Place.start_le_ofSource (source : List Char) :
    Position.start ≤ (Place.ofSource source).position := by
  unfold Place.ofSource
  split
  next => exact Or.inl (Nat.succ_pos 2)
  next => exact Position.le_refl _

theorem Position.offset_le {first last : Position} (le : first ≤ last) :
    first.offset ≤ last.offset := by
  rcases le with less | ⟨same, _⟩
  · exact Nat.le_of_lt less
  · exact Nat.le_of_eq same

/-- The ends of every token are places of the text. -/
theorem Input.reaches_token (input : Input) {token : Token} (member : token ∈ input.tokens) :
    Position.start ≤ token.span.first ∧ (Place.ofSource input.source).Covers token.span := by
  obtain ⟨last, tiles⟩ := LexState.exists_tiles_stream input.cancelled
    (.ofSource input.settings.tabWidth input.source)
  have spells := tiles.spells token member
  rw [LexState.place_ofSource] at spells
  refine ⟨Position.le_trans (Place.start_le_ofSource _) spells.le.1, ?_⟩
  obtain ⟨before, text, after, rest, _, span, _⟩ := spells
  rw [span]
  exact ⟨⟨text ++ after, before, rest, rfl⟩, after, before ++ text, by simp [rest],
    (Position.advance_append _ _ _).symm⟩

/-! ## Nodes -/

/-- The span of a node that is met below a file, with the spans of its parts. A node that is met a
second time as one of another kind is left out there. -/
def Event.node? {α : Type} : Event α → Option (α × List α)
  | .statement value => some (value.span, value.children)
  | .expr value => some (value.span, value.children)
  | .literal value => some (value.span, value.children)
  | .identifier name => some (name.span, [])
  | .type name => some (name.span, [name.span])
  | .arm value => some (value.span, value.children)
  | .pattern value => some (value.span, value.children)
  | .armBody value => some (value.span, value.children)
  | .file _ | .topLevel _ | .expressionStatement _ | .throwStatement _ | .blockStart _ | .blockEnd
  | .switch _ _ => none

/-- A node stands in a text: it covers a stretch of it, and the nodes below it one behind the
other. -/
structure Span.Nested (source : List Char) (span : Span) (children : List Span) : Prop where
  text : (span.text? source).isSome = true
  forward : span.first ≤ span.last
  covers : ∀ child ∈ children, span.Covers child
  ordered : children.Pairwise fun earlier later => earlier.last ≤ later.first

variable {settings : Settings} {cancelled : Bool} {source : List Char} {file : File Span}

theorem Span.Within.text {input : Input} {after : List Token} {span : Span}
    (within : span.Within input.tokens after) : (span.text? input.source).isSome = true := by
  obtain ⟨first, isFirst, starts⟩ := within.starts
  obtain ⟨last, isLast, ends⟩ := within.ends
  have reachesFirst := (input.reaches_token isFirst).2.1
  have reachesLast := (input.reaches_token isLast).2.2
  exact Text.isSome_slice? (starts ▸ reachesFirst.isBoundary) (ends ▸ reachesLast.isBoundary)
    (Position.offset_le within.forward)

theorem Span.Holds.nested {input : Input} {before after : List Token} {span : Span}
    {children : List Span} (holds : span.Holds before after children)
    (suffix : before <:+ input.tokens) : span.Nested input.source children where
  text := (holds.within.mono suffix List.suffix_rfl).text
  forward := holds.within.forward
  covers := holds.covers
  ordered := holds.row.ordered

/-- A file starts with its first statement. -/
theorem file_starts (input : Input)
    (read : (parse input.settings input.cancelled input.source).file? = some file) :
    file.span.first = (file.statements.head?.map fun statement => statement.span.first).getD
      .start := by
  have past : Past input.settings 0 input.start input.start := .start (ready_ofSource _ _ _)
  have finds : Finds input.settings input.start Parser.file input.start fun file _ =>
      file.span.first = (file.statements.head?.map fun statement => statement.span.first).getD
        .start := by
    refine finds_within (fun _ _ _ starts => starts) (finds_fueled ?_)
    rw [Grammar.file]
    refine ((Grammar.sound _ _).statementsUntil .endOfInput (past.named _)).bind ?_
    rintro statements middle ⟨n, reached, _⟩
    refine (finds_expect_end reached).bind fun last after _ => finds_pure ?_
    cases statements <;> rfl
  rw [parse] at read
  rw [Finds, Input.start] at finds
  generalize Parser.file (.ofSource input.settings input.cancelled input.source) = result at read finds
  cases result with
  | error abort after => exact absurd read (Option.some_ne_none file).symm
  | ok tree after =>
    obtain rfl := Option.some.inj read
    exact finds

/-- The statements of a file stand one behind the other, from its start to its end. -/
theorem file_nested (input : Input)
    (read : (parse input.settings input.cancelled input.source).file? = some file) :
    file.span.Nested input.source (file.statements.map Statement.span) := by
  obtain ⟨eof, _, isLast, derives⟩ := file_derived input read
  have isFirst := file_starts input read
  have inOrder := inOrder_ofSource input.settings input.cancelled input.source
  change InOrder input.tokens at inOrder
  have row : Row input.tokens [eof] (file.statements.map Statement.span) := derives.holds inOrder
  have ending := Span.Within.of_token (inOrder.of_suffix row.taken)
  have isToken : eof ∈ input.tokens := row.taken.mem List.mem_cons_self
  have afterStart := (input.reaches_token isToken).1
  have reaches := (input.reaches_token isToken).2.2
  rw [← isLast] at reaches
  have upTo := row.upTo ending List.suffix_rfl
  rw [← isLast] at upTo
  -- A file without statements starts where the text does, even before a byte order mark.
  obtain ⟨boundary, forward, starts⟩ : Text.IsBoundary input.source file.span.first.offset ∧
      file.span.first ≤ file.span.last ∧
        ∀ part ∈ file.statements.map Statement.span, file.span.first ≤ part.first := by
    generalize file.statements = statements at isFirst row upTo ⊢
    cases statements with
    | nil =>
      have isStart : file.span.first = .start := isFirst
      rw [isStart, isLast]
      exact ⟨Text.isBoundary_zero _, Position.le_trans afterStart ending.forward,
        fun _ member => absurd member List.not_mem_nil⟩
    | cons first others =>
      have isStart : file.span.first = first.span.first := isFirst
      have within := row.within first.span List.mem_cons_self
      obtain ⟨token, member, place⟩ := within.starts
      rw [isStart]
      refine ⟨place ▸ (input.reaches_token member).2.1.isBoundary,
        Position.le_trans within.forward (upTo _ List.mem_cons_self), List.forall_mem_cons.mpr
          ⟨Position.le_refl _, fun part isPart => Position.le_trans within.forward ?_⟩⟩
      exact (List.pairwise_cons.mp row.ordered).1 part isPart
  exact ⟨Text.isSome_slice? boundary reaches.isBoundary (Position.offset_le forward), forward,
    fun part member => ⟨starts part member, upTo part member⟩, row.ordered⟩

/-- In a tree that is read from any text, also if statements in it are wrong, every node covers a
stretch of the text that starts and ends between characters, and the nodes below it one behind the
other. -/
theorem spans_nested (read : (parse settings cancelled source).file? = some file) :
    file.span.Nested source (file.statements.map Statement.span) ∧
      ∀ event ∈ file.walk, ∀ span children, event.node? = some (span, children) →
        span.Nested source children := by
  refine ⟨file_nested ⟨settings, cancelled, source⟩ read, fun event met span children isNode => ?_⟩
  have inOrder := inOrder_ofSource settings cancelled source
  obtain ⟨_, _, _, derives⟩ := file_derived ⟨settings, cancelled, source⟩ read
  have node {root : Phrase} (met : event ∈ Statement.walkAll file.statements)
      (isRoot : event.phrase? = some root) : ∃ before after, before <:+
        (Input.tokens ⟨settings, cancelled, source⟩) ∧ root.Holds before after := by
    obtain ⟨_, before, after, suffix, derives⟩ := derives.rooted event met root isRoot
    exact ⟨before, after, suffix, derives.holds (inOrder.of_suffix suffix)⟩
  obtain rfl | ⟨statement, member, rfl⟩ | met := File.walk_cases met
  · contradiction
  · contradiction
  · cases event with
    | file | topLevel | expressionStatement | throwStatement | blockStart | blockEnd | switch =>
      contradiction
    | _ =>
      obtain ⟨before, after, suffix, holds⟩ := node met rfl
      obtain ⟨rfl, rfl⟩ := Prod.mk.inj (Option.some.inj isNode)
      exact Span.Holds.nested holds suffix

theorem spans_nested_choosing :
    ∃ file, (parse Input.choosing.settings Input.choosing.cancelled
        Input.choosing.source).file? = some file ∧
      file.statements.map Statement.span = [⟨⟨0, 1, 1⟩, ⟨21, 2, 8⟩⟩] ∧
      file.span.Nested Input.choosing.source (file.statements.map Statement.span) ∧
        ∀ event ∈ file.walk, ∀ span children, event.node? = some (span, children) →
          span.Nested Input.choosing.source children := by
  obtain ⟨file, read, spans⟩ := Input.file_choosing
  exact ⟨file, read, spans, spans_nested read⟩

end Offside
