import Offside.Proofs.Parser.TandemWalk

/-!
Whole texts in tandem: there is a tree of both or of neither, the trees are the same but for hints,
the same statements are wrong, and the diagnostics correspond.
-/

namespace Offside

open LexStream ParserState Offside.Parser

namespace Input

variable (input : Input)

def parsed : Parsed :=
  parse input.settings input.cancelled input.source

/-- The state that the reading of the whole text ends in. -/
def ended : ParserState :=
  ParserState.ended input.settings input.cancelled input.source

variable {input} {after : ParserState}

theorem ended_of_ok {file : File Span} (result : Parser.file input.start = .ok file after) :
    input.ended = after := by
  rw [ended, ParserState.ended, ← start, result]

theorem ended_of_error {abort : Abort} (result : Parser.file input.start = .error abort after) :
    input.ended = after := by
  rw [ended, ParserState.ended, ← start, result]

/-- No text is too deep for its fuel, and no error of a statement is left over. -/
theorem failure_of_file {abort : Abort} (result : Parser.file input.start = .error abort after) :
    ∃ error, abort = .failure error := by
  have settled := settled_file input.settings input.cancelled input.source
  rw [← start, result] at settled
  obtain ⟨error, isFailure, _⟩ := settled
  exact ⟨error, isFailure⟩

end Input

namespace Tandem

variable {pair : Tandem}

theorem beside_start (items : pair.Items pair.left.start.coming pair.right.start.coming) :
    pair.Beside pair.left.start pair.right.start where
  visitedLeft := .start
  visitedRight := .start
  items := items
  depth := rfl
  taken := by
    rw [Input.ahead_start, Input.ahead_start]
    exact Nat.add_comm _ _
  spoken := ⟨.nil, fun _ => .nil⟩

/-- Files are read alike from states that are as far as each other. -/
theorem meet_whole {left right : ParserState} (sound : Lists.Sound pair.left .endOfInput left)
    (sound' : Lists.Sound pair.right .endOfInput right) (beside : pair.Beside left right)
    (n m : Nat) :
    pair.Meet (fun file after file' after' =>
        List.Forall₂ pair.SameStatement file.statements file'.statements ∧
          pair.Beside after after')
      (Grammar.file n) left (Grammar.file m) right := by
  rw [Grammar.file, Grammar.file]
  refine ((pair.walk _ _).statementsUntil sound sound' beside).bind ?_
  rintro statements _ statements' _ ⟨all, read⟩
  refine (meet_expect_code rfl read).bind ?_
  rintro last _ last' _ ⟨_, _, closed⟩
  exact meet_pure ⟨all, closed⟩

theorem meet_file (items : pair.Items pair.left.start.coming pair.right.start.coming) :
    pair.Meet (fun file after file' after' =>
        List.Forall₂ pair.SameStatement file.statements file'.statements ∧
          pair.Beside after after')
      Parser.file pair.left.start Parser.file pair.right.start := by
  apply meet_within fun _ _ _ _ _ _ holds => ⟨holds.1, holds.2.named _ _⟩
  apply Meet.fueled
  exact meet_whole (Lists.file [.file]).sound (Lists.file [.file]).sound
    ((beside_start items).named [.file] [.file]) _ _

/-- What two texts that correspond are answered by. -/
structure Answers (pair : Tandem) : Prop where
  trees : Option.Rel (fun file file' =>
      List.Forall₂ pair.SameStatement file.statements file'.statements)
    pair.left.parsed.file? pair.right.parsed.file?
  failures : List.Forall₂ pair.Told pair.left.ended.failures pair.right.ended.failures
  diagnostics : pair.inStep → ∃ reported reported',
    pair.left.parsed.diagnostics = Diagnostic.sorted reported ∧
      pair.right.parsed.diagnostics = Diagnostic.sorted reported' ∧
        List.Forall₂ pair.tells reported reported'

theorem answers (items : pair.Items pair.left.start.coming pair.right.start.coming) :
    pair.Answers := by
  have meets := meet_file items
  unfold Meet at meets
  generalize result : Parser.file pair.left.start = left at meets
  generalize result' : Parser.file pair.right.start = right at meets
  have parsed : pair.left.parsed = Parsed.ofResult left := congrArg Parsed.ofResult result
  have parsed' : pair.right.parsed = Parsed.ofResult right := congrArg Parsed.ofResult result'
  cases meets with
  | ok holds =>
    obtain ⟨all, beside⟩ := holds
    refine ⟨?_, ?_, ?_⟩
    · rw [parsed, parsed']
      exact .some all
    · rw [Input.ended_of_ok result, Input.ended_of_ok result']
      exact beside.spoken.failures
    · intro inStep
      exact ⟨_, _, congrArg Parsed.diagnostics parsed, congrArg Parsed.diagnostics parsed',
        beside.spoken.reported inStep⟩
  | failure lost =>
    refine ⟨?_, ?_, ?_⟩
    · rw [parsed, parsed']
      exact .none
    · rw [Input.ended_of_error result, Input.ended_of_error result']
      exact lost.failures
    · intro inStep
      exact ⟨_, _, congrArg Parsed.diagnostics parsed, congrArg Parsed.diagnostics parsed',
        lost.reported inStep⟩
  | recoverable =>
    obtain ⟨_, isFailure⟩ := Input.failure_of_file result
    exact Abort.noConfusion isFailure
  | exhaustedLeft =>
    obtain ⟨_, isFailure⟩ := Input.failure_of_file result
    exact Abort.noConfusion isFailure
  | exhaustedRight =>
    obtain ⟨_, isFailure⟩ := Input.failure_of_file result'
    exact Abort.noConfusion isFailure

/-- With the same hints the trees are the same up to spans. -/
theorem Answers.erased (answers : pair.Answers) (sameHints : pair.hinted = false) :
    pair.right.parsed.file?.map File.erase = pair.left.parsed.file?.map File.erase := by
  have trees := answers.trees
  generalize pair.left.parsed.file? = tree at trees ⊢
  generalize pair.right.parsed.file? = tree' at trees ⊢
  cases trees with
  | none => rfl
  | @some file file' all =>
    have erased := (statements_same all).1
    rw [sameHints, Statement.unhintAll_false] at erased
    simp only [Option.map_some, File.erase, erased]

end Tandem

end Offside
