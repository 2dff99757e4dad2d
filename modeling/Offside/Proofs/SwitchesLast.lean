import Offside.Proofs.Parser.Border
import Offside.Proofs.Parser.Enclosed
import Offside.Proofs.Parser.Foreseen

/-!
Nothing comes behind a switch. The layout that ends a switch ends every expression that the switch
is the last part of, so that no operator of a line behind is applied to it.
-/

namespace Offside

open LexStream ParserState

variable {settings : Settings} {cancelled : Bool} {source : List Char} {file : File Span}

/-- In a tree that is read from any text, also if statements in it are wrong, there is no switch
within an operand that something of the node comes behind, nor within brackets or an interpolation.
An expression with a switch in it ends with one. -/
theorem switches_last (read : (parse settings cancelled source).file? = some file) :
    ∀ event ∈ file.walk,
      (∀ part ∈ event.interior, ∀ inner ∈ part.walk, inner.isSwitch = false) ∧
        ∀ value, event = .expr value →
          (∀ inner ∈ value.walk, inner.isSwitch = false) ∨ value.endsWithLayout = true := by
  obtain ⟨_, _, _, derives⟩ := file_derived ⟨settings, cancelled, source⟩ read
  have guarded : Guarded (Statement.walkAll file.statements) :=
    derives.guarded ⟨[], layoutOutside_tokens ⟨settings, cancelled, source⟩⟩
  intro event met
  obtain rfl | ⟨_, _, rfl⟩ | met := File.walk_cases met
  · exact Event.guarded_of_plain rfl rfl
  · exact Event.guarded_of_plain rfl rfl
  · exact guarded event met

/-! ## A switch behind an operator -/

namespace Input

def choosing : Input :=
  .of default "x = switch a:\n b -> c\n".toList

def choosingTokens : List Token :=
  [⟨.identifier, "x", ⟨⟨0, 1, 1⟩, ⟨1, 1, 2⟩⟩⟩,
    ⟨.symbol .assign, "=", ⟨⟨2, 1, 3⟩, ⟨3, 1, 4⟩⟩⟩,
    ⟨.keyword .switch, "switch", ⟨⟨4, 1, 5⟩, ⟨10, 1, 11⟩⟩⟩,
    ⟨.identifier, "a", ⟨⟨11, 1, 12⟩, ⟨12, 1, 13⟩⟩⟩,
    ⟨.symbol .colon, ":", ⟨⟨12, 1, 13⟩, ⟨13, 1, 14⟩⟩⟩,
    ⟨.indent, "", ⟨⟨15, 2, 2⟩, ⟨15, 2, 2⟩⟩⟩,
    ⟨.identifier, "b", ⟨⟨15, 2, 2⟩, ⟨16, 2, 3⟩⟩⟩,
    ⟨.symbol .arrow, "->", ⟨⟨17, 2, 4⟩, ⟨19, 2, 6⟩⟩⟩,
    ⟨.identifier, "c", ⟨⟨20, 2, 7⟩, ⟨21, 2, 8⟩⟩⟩,
    ⟨.dedent, "", ⟨⟨22, 3, 1⟩, ⟨22, 3, 1⟩⟩⟩,
    ⟨.endOfInput, "", ⟨⟨22, 3, 1⟩, ⟨22, 3, 1⟩⟩⟩]

theorem answers_choosing :
    choosing.start.lexer.answers (List.replicate 11 false) = choosingTokens.map .token := by
  decide +kernel

theorem foreseen_choosing :
    ((Grammar.file 40).run' (choosing.foreseen choosingTokens)).map
        (fun file => file.statements.map Statement.span) = some [⟨⟨0, 1, 1⟩, ⟨21, 2, 8⟩⟩] := by
  decide +kernel

/-- The text is read to one statement. -/
theorem file_choosing :
    ∃ file, (parse choosing.settings choosing.cancelled choosing.source).file? = some file ∧
      file.statements.map Statement.span = [⟨⟨0, 1, 1⟩, ⟨21, 2, 8⟩⟩] := by
  obtain ⟨file, read, spans⟩ := Option.map_eq_some_iff.mp foreseen_choosing
  obtain ⟨found, isFile, _, same⟩ := file_of_foreseen answers_choosing read
  exact ⟨found, isFile, same.trans spans⟩

end Input

theorem switches_last_choosing :
    ∃ file, (parse Input.choosing.settings Input.choosing.cancelled
        Input.choosing.source).file? = some file ∧
      ∀ event ∈ file.walk,
        (∀ part ∈ event.interior, ∀ inner ∈ part.walk, inner.isSwitch = false) ∧
          ∀ value, event = .expr value →
            (∀ inner ∈ value.walk, inner.isSwitch = false) ∨ value.endsWithLayout = true := by
  obtain ⟨file, read, _⟩ := Input.file_choosing
  exact ⟨file, read, switches_last read⟩

end Offside
