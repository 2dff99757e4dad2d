import Offside.Proofs.Concatenation
import Offside.Proofs.Parser.Leaves
import Offside.Proofs.TokensAlone

/-!
Trees have the names and literals of their texts. None is met twice or out of order, and one is
missed only where a statement was wrong.
-/

namespace Offside

open ParserState

variable {settings : Settings} {cancelled : Bool} {source : List Char} {file : File Span}

/-- The names and literals of a file are met in its statements. -/
theorem File.leaves_walk (file : File Span) :
    leaves file.walk = leaves (Statement.walkAll file.statements) := by
  rw [File.walk, leaves_cons]
  change leaves _ = _
  generalize file.statements = statements
  induction statements with
  | nil => rfl
  | cons statement statements inductionHypothesis =>
    rw [List.flatMap_cons, Statement.walkAll, leaves_append, leaves_append, leaves_cons,
      inductionHypothesis]
    rfl

/-- Where all diagnostics are those of the lexer, no attempt at a statement failed. -/
theorem failures_of_perm
    (lexical : (parse settings cancelled source).diagnostics.Perm
      (tokenize settings cancelled source).diagnostics) :
    (ended settings cancelled source).failures.length = 0 := by
  obtain ⟨balanced, _⟩ := Input.fails ⟨settings, cancelled, source⟩
  have counted := (lexical.symm.trans balanced).length_eq
  rw [List.length_append, failed, List.length_map] at counted
  exact Nat.left_eq_add.mp counted

/-- The names and literals that a walk over a tree meets are in order among those of the tokens, and
are all of them if no statement was wrong, that is, if all diagnostics are those of the lexer. Every
string that is met is read from the tokens from its start to its end, with its parts in order. -/
theorem leaves_in_order (read : (parse settings cancelled source).file? = some file) :
    (leaves file.walk).Sublist (leavesOf (tokenize settings cancelled source).tokens) ∧
      ((parse settings cancelled source).diagnostics.Perm
          (tokenize settings cancelled source).diagnostics →
        leaves file.walk = leavesOf (tokenize settings cancelled source).tokens) ∧
      ∀ parts span, .literal (.string parts span) ∈ file.walk →
        ∃ before start inside last after,
          (tokenize settings cancelled source).tokens =
            before ++ start :: (inside ++ last :: after) ∧
          start.kind = .stringStart ∧ last.kind = .stringEnd ∧
          span = start.span.join last.span ∧ PartsOf settings parts inside := by
  obtain ⟨eof, isEof, _, derives⟩ := file_derived ⟨settings, cancelled, source⟩ read
  change Derives settings (ended settings cancelled source).failures.length
    (tokenize settings cancelled source).tokens _ _ at derives
  have situated : Situated (tokenize settings cancelled source).tokens :=
    ⟨[], layoutOutside_tokens ⟨settings, cancelled, source⟩⟩
  have nothingBehind : leavesOf [eof] = [] := leavesOf_skip (isEof ▸ rfl)
  obtain ⟨taken, whole, sublist, all⟩ := derives.metIn
  rw [nothingBehind, List.append_nil] at whole
  rw [File.leaves_walk, whole]
  refine ⟨sublist, fun lexical => all (failures_of_perm lexical), fun parts span met => ?_⟩
  obtain isFile | ⟨_, _, isTopLevel⟩ | met := File.walk_cases met
  · contradiction
  · contradiction
  · obtain ⟨_, first, after, ⟨before, split⟩, string⟩ := derives.rooted _ met _ rfl
    obtain ⟨start, inside, last, rfl, others⟩ := string.parts (situated.of_suffix ⟨before, split⟩)
    exact ⟨before, start, inside, last, after, split.symm, others⟩

/-- A switch without arms. -/
theorem leaves_in_order_bare :
    ∃ file, (parse {} false "switch x :\n".toList).file? = some file ∧
      (parse {} false "switch x :\n".toList).diagnostics.Perm
        (tokenize {} false "switch x :\n".toList).diagnostics ∧
      leaves file.walk = leavesOf (tokenize {} false "switch x :\n".toList).tokens ∧
      ∀ parts span, .literal (.string parts span) ∈ file.walk →
        ∃ before start inside last after,
          (tokenize {} false "switch x :\n".toList).tokens =
            before ++ start :: (inside ++ last :: after) ∧
          start.kind = .stringStart ∧ last.kind = .stringEnd ∧
          span = start.span.join last.span ∧ PartsOf {} parts inside := by
  obtain ⟨file, parsed, _⟩ := Outline.parse_bare
  have read : (parse {} false "switch x :\n".toList).file? = some file := congrArg Parsed.file? parsed
  have clean : (parse {} false "switch x :\n".toList).diagnostics = [] :=
    congrArg Parsed.diagnostics parsed
  obtain ⟨balanced, _⟩ := Input.fails ⟨{}, false, "switch x :\n".toList⟩
  have lexical : (tokenize {} false "switch x :\n".toList).diagnostics = [] :=
    (List.append_eq_nil_iff.mp (balanced.symm.trans (.of_eq clean)).eq_nil).1
  have same : (parse {} false "switch x :\n".toList).diagnostics.Perm
      (tokenize {} false "switch x :\n".toList).diagnostics := .of_eq (clean.trans lexical.symm)
  obtain ⟨_, all, strings⟩ := leaves_in_order read
  exact ⟨file, read, same, all same, strings⟩

end Offside
