import Offside.Proofs.Parser.Border
import Offside.Proofs.Parser.Foreseen
import Offside.Proofs.Parser.StringInterior

/-!
Statements within strings. A string that is read is an expression, and no statement is read out of
it. Where a statement is wrong, though, reading goes on behind the next semicolon, and that may
stand in an interpolation.
-/

namespace Offside

open LexStream ParserState

variable {input : Input} {file : File Span} {event : Event Span} {span : Span}

/-- A statement of a tree, at any level, or what an arm does starts inside of a string only if
some token of that string, not behind that start, is one where statements go on after one that was
wrong, and a statement was wrong. -/
theorem statement_in_string
    (read : (parse input.settings input.cancelled input.source).file? = some file)
    {start last : Token} {inside : List Token} (string : input.HasString start inside last)
    (met : event ∈ file.walk) (isAct : event.act? = some span)
    (later : start.span.first < span.first) (earlier : span.first < last.span.last) :
    (∃ token ∈ inside, token.span.first ≤ span.first ∧
        (token.kind.endsSkipped = true ∨ token.kind.stopsSkipping = true)) ∧
      ∃ diagnostic ∈ (parse input.settings input.cancelled input.source).diagnostics,
        diagnostic.kind = .syntactic := by
  obtain ⟨_, _, _, derives⟩ := file_derived input read
  obtain ⟨_, _, clears⟩ := (Derives.nested derives).clear Surroundings.noConfusion
  obtain ⟨_, acts⟩ := clears 0 [] (layoutOutside_tokens input) (.nil 0 _)
  have readClear := acts span (File.mem_acts_of_walk met isAct)
  obtain ⟨positive, resumes⟩ := readClear.resumes string later earlier
  refine ⟨resumes, ?_⟩
  obtain ⟨reported, result, settled⟩ :=
    settled_ended input.settings input.cancelled input.source
  obtain ⟨_, _, balanced, syntactic⟩ := settled.accounted result
  have attempt : (ended input.settings input.cancelled input.source).failed ≠ [] := by
    rw [← List.length_pos_iff, failed, List.length_map]
    simpa using positive
  obtain ⟨diagnostic, member⟩ := List.exists_mem_of_ne_nil _ attempt
  exact ⟨diagnostic, balanced.mem_iff.mpr (List.mem_append_right _ member),
    (syntactic diagnostic member).1⟩

/-! ## A string that spills a statement -/

namespace Input

/-- A string whose interpolation is no expression and has semicolons in it. -/
def spilled : Input :=
  .of default "\"\x7ba b;c;\x7d\";".toList

def spilledStart : Token :=
  ⟨.stringStart, "\"", ⟨⟨0, 1, 1⟩, ⟨1, 1, 2⟩⟩⟩

def spilledInside : List Token :=
  [⟨.interpolationStart, "\x7b", ⟨⟨1, 1, 2⟩, ⟨2, 1, 3⟩⟩⟩,
    ⟨.identifier, "a", ⟨⟨2, 1, 3⟩, ⟨3, 1, 4⟩⟩⟩,
    ⟨.identifier, "b", ⟨⟨4, 1, 5⟩, ⟨5, 1, 6⟩⟩⟩,
    ⟨.symbol .semicolon, ";", ⟨⟨5, 1, 6⟩, ⟨6, 1, 7⟩⟩⟩,
    ⟨.identifier, "c", ⟨⟨6, 1, 7⟩, ⟨7, 1, 8⟩⟩⟩,
    ⟨.symbol .semicolon, ";", ⟨⟨7, 1, 8⟩, ⟨8, 1, 9⟩⟩⟩,
    ⟨.interpolationEnd, "\x7d", ⟨⟨8, 1, 9⟩, ⟨9, 1, 10⟩⟩⟩]

def spilledEnd : Token :=
  ⟨.stringEnd, "\"", ⟨⟨9, 1, 10⟩, ⟨10, 1, 11⟩⟩⟩

def spilledAfter : List Token :=
  [⟨.symbol .semicolon, ";", ⟨⟨10, 1, 11⟩, ⟨11, 1, 12⟩⟩⟩,
    ⟨.endOfInput, "", ⟨⟨11, 1, 12⟩, ⟨11, 1, 12⟩⟩⟩]

theorem answers_spilled :
    spilled.start.lexer.answers (List.replicate 11 false) =
      (spilledStart :: (spilledInside ++ spilledEnd :: spilledAfter)).map .token := by
  decide +kernel

theorem hasString_spilled : spilled.HasString spilledStart spilledInside spilledEnd where
  found := by
    have items : spilled.lexed.items = spilled.start.lexer.answers (List.replicate 11 false) :=
      Lexer.items_eq_answers (by decide +kernel)
    refine ⟨[], spilledAfter, ?_⟩
    rw [tokens, items, answers_spilled, tokens_map_token]
    rfl
  isStart := rfl
  isEnd := rfl
  balanced := rfl

/-- With its tokens at hand the text is read to one statement. -/
theorem foreseen_spilled :
    ((Grammar.file 40).run' (spilled.foreseen
      (spilledStart :: (spilledInside ++ spilledEnd :: spilledAfter)))).map
        (fun file => file.statements.map Statement.span) = some [⟨⟨6, 1, 7⟩, ⟨8, 1, 9⟩⟩] := by
  decide +kernel

/-- The statement between the semicolons is read as one of the file. -/
theorem statement_spilled :
    ∃ file event, spilled.parsed.file? = some file ∧ event ∈ file.walk ∧
      event.act? = some ⟨⟨6, 1, 7⟩, ⟨8, 1, 9⟩⟩ := by
  obtain ⟨file, read, spans⟩ := Option.map_eq_some_iff.mp foreseen_spilled
  obtain ⟨found, isFile, _, same⟩ := file_of_foreseen answers_spilled read
  obtain ⟨statement, others, statements, isSpan, _⟩ := List.map_eq_cons_iff.mp (same.trans spans)
  refine ⟨found, .statement statement, isFile, ?_, congrArg some isSpan⟩
  rw [File.walk, statements]
  obtain ⟨action⟩ | ⟨span⟩ := statement <;> simp [Statement.walk]

end Input

/-- A statement may start inside of a string, then. -/
theorem exists_statement_in_string :
    ∃ file start inside last event span,
      (parse Input.spilled.settings Input.spilled.cancelled Input.spilled.source).file? =
          some file ∧
        Input.spilled.HasString start inside last ∧ event ∈ file.walk ∧
          event.act? = some span ∧ start.span.first < span.first ∧
            span.first < last.span.first := by
  obtain ⟨file, event, read, met, isAct⟩ := Input.statement_spilled
  exact ⟨file, _, _, _, event, _, read, Input.hasString_spilled, met, isAct, by decide, by decide⟩

theorem statement_in_string_spilled :
    ∃ file start inside last event span,
      ((parse Input.spilled.settings Input.spilled.cancelled Input.spilled.source).file? =
          some file ∧
        Input.spilled.HasString start inside last ∧ event ∈ file.walk ∧
          event.act? = some span ∧ start.span.first < span.first ∧
            span.first < last.span.last) ∧
      (∃ token ∈ inside, token.span.first ≤ span.first ∧
          (token.kind.endsSkipped = true ∨ token.kind.stopsSkipping = true)) ∧
        ∃ diagnostic ∈ (parse Input.spilled.settings Input.spilled.cancelled
            Input.spilled.source).diagnostics,
          diagnostic.kind = .syntactic := by
  obtain ⟨file, event, read, met, isAct⟩ := Input.statement_spilled
  have later : Input.spilledStart.span.first < (⟨6, 1, 7⟩ : Position) := by decide
  have earlier : (⟨6, 1, 7⟩ : Position) < Input.spilledEnd.span.last := by decide
  exact ⟨file, _, _, _, event, _, ⟨read, Input.hasString_spilled, met, isAct, later, earlier⟩,
    statement_in_string read Input.hasString_spilled met isAct later earlier⟩

end Offside
