import Offside.Proofs.Parser.Foreseen
import Offside.Proofs.Parser.Spelled
import Offside.Proofs.Syntax.ReadPrint

/-!
Printed trees. What is printed of the tree of a text tells the tree up to spans, as far as strings
go up to fragments without text. Only a brace in the text of a string is printed as the start of an
interpolation is.
-/

namespace Offside

open LexStream ParserState

variable {left right : Input} {file other : File Span}

/-- Trees that are the same up to fragments without text are printed the same. -/
theorem File.print_eq_of_bare_eq {α β : Type} {file : File α} {other : File β}
    (same : file.bare = other.bare) : file.print = other.print := by
  rw [← file.print_bare, same, other.print_bare]

theorem File.print_erase {α : Type} (file : File α) : file.erase.print = file.print :=
  File.print_eq_of_bare_eq file.bare_erase

/-- Two texts whose trees are printed the same have trees that are the same up to spans and up to
fragments of strings without text, unless a tree has floating point numbers or braces in the text of
its strings. -/
theorem print_injective
    (read : (parse left.settings left.cancelled left.source).file? = some file)
    (readOther : (parse right.settings right.cancelled right.source).file? = some other)
    (plain : file.Plain) (plainOther : other.Plain) (same : file.print = other.print) :
    file.bare = other.bare := by
  have legible := plain.legible (wellSpelled_walk read)
  have legibleOther := plainOther.legible (wellSpelled_walk readOther)
  have lines := congrArg String.toList same
  rw [File.toList_print, File.toList_print] at lines
  have items : Statement.sexpAll file.statements = Statement.sexpAll other.statements :=
    Sexp.renderLines_inj (Statement.legibleAll _ legible) (Statement.legibleAll _ legibleOther) lines
  have statements : Statement.bareAll file.statements = Statement.bareAll other.statements := by
    rw [← Statement.readAll _ legible, items, Statement.readAll _ legibleOther]
  rw [File.bare, File.bare, statements]

/-! ## Strings that are printed the same -/

/-- Which parts of the strings of a tree are interpolations, in the order of a walk. -/
def File.interpolated {α : Type} (file : File α) : List Bool :=
  file.walk.flatMap fun
    | .literal (.string parts _) => parts.map StringPart.isInterpolation
    | _ => []

namespace Input

/-- Two texts have trees without floating point numbers that are printed the same and are not the
same up to spans. -/
def Confused (left right : Input) : Prop :=
  ∃ file other,
    (parse left.settings left.cancelled left.source).file? = some file ∧
      (parse right.settings right.cancelled right.source).file? = some other ∧
      (∀ event ∈ file.walk, event.isFloat = false) ∧
      (∀ event ∈ other.walk, event.isFloat = false) ∧
      file.print = other.print ∧ file.erase ≠ other.erase

/-- The tokens among the first answers of the lexer. -/
def firstTokens (input : Input) (count : Nat) : List Token :=
  LexStream.tokens (input.start.lexer.answers (List.replicate count input.cancelled))

/-- The first answers are all there are, and are tokens, none of them a floating point number. -/
structure Answered (input : Input) (count : Nat) : Prop where
  done : (input.start.lexer.afterRequests (List.replicate count input.cancelled)).next?
    input.cancelled = none
  known : input.start.lexer.answers
    (List.replicate (input.firstTokens count).length input.cancelled) =
      (input.firstTokens count).map .token
  noFloat : ∀ token ∈ input.firstTokens count, token.kind.isFloat = false

theorem Answered.tokens_eq {input : Input} {count : Nat} (answered : input.Answered count) :
    input.tokens = input.firstTokens count :=
  congrArg LexStream.tokens (Lexer.items_eq_answers answered.done)

/-- The text has a tree without floating point numbers that is printed like this, and that has
these parts of strings. -/
def ReadAs (input : Input) (printed : String) (interpolated : List Bool) : Prop :=
  ∃ file, (parse input.settings input.cancelled input.source).file? = some file ∧
    (∀ event ∈ file.walk, event.isFloat = false) ∧
    file.print = printed ∧ file.erase.interpolated = interpolated

variable {input : Input} {count : Nat} {printed : String} {interpolated others : List Bool}

/-- With its tokens at hand a text is read to a tree that stands for its own. -/
theorem Answered.readAs (answered : input.Answered count) (fuel : Nat)
    (read : ((Grammar.file fuel).run' (input.foreseen (input.firstTokens count))).map
      (fun file => (file.print, file.erase.interpolated)) = some (printed, interpolated)) :
    input.ReadAs printed interpolated := by
  obtain ⟨file, read, results⟩ := Option.map_eq_some_iff.mp read
  obtain ⟨found, isFile, erased, _⟩ := file_of_foreseen answered.known read
  obtain ⟨print, parts⟩ := Prod.mk.inj results
  refine ⟨found, isFile, noFloat_walk isFile (answered.tokens_eq ▸ answered.noFloat), ?_,
    erased ▸ parts⟩
  rw [← found.print_erase, erased, file.print_erase, print]

theorem ReadAs.confused (readAs : left.ReadAs printed interpolated)
    (readAsOther : right.ReadAs printed others) (different : interpolated ≠ others) :
    left.Confused right := by
  obtain ⟨file, read, noFloat, print, parts⟩ := readAs
  obtain ⟨other, readOther, noFloatOther, printOther, partsOther⟩ := readAsOther
  refine ⟨file, other, read, readOther, noFloat, noFloatOther, print.trans printOther.symm, ?_⟩
  intro same
  rw [← parts, ← partsOther, same] at different
  contradiction

/-- A string with nothing in it. -/
def empty : Input :=
  ⟨default, false, "\"\"\n".toList⟩

/-- A string with nothing in it but a line break that does not count. -/
def continued : Input :=
  ⟨default, false, "\"\\\n\"\n".toList⟩

/-- A string with braces in its text. -/
def braced : Input :=
  ⟨default, false, "\"\\\x7ba\x7d\"\n".toList⟩

/-- A string with an interpolation. -/
def interpolating : Input :=
  ⟨default, false, "\"\x7ba\x7d\"\n".toList⟩

theorem answered_plain : empty.Answered 4 ∧ continued.Answered 5 := by
  constructor
  · exact ⟨by decide +kernel, by decide +kernel, by decide +kernel⟩
  · exact ⟨by decide +kernel, by decide +kernel, by decide +kernel⟩

theorem answered_braced : braced.Answered 5 ∧ interpolating.Answered 7 := by
  constructor
  · exact ⟨by decide +kernel, by decide +kernel, by decide +kernel⟩
  · exact ⟨by decide +kernel, by decide +kernel, by decide +kernel⟩

theorem readAs_plain :
    empty.ReadAs "\"\"\n" [] ∧ continued.ReadAs "\"\"\n" [false] := by
  obtain ⟨empty, continued⟩ := answered_plain
  exact ⟨empty.readAs 40 (by decide +kernel), continued.readAs 40 (by decide +kernel)⟩

theorem readAs_braced :
    braced.ReadAs "\"\x7ba\x7d\"\n" [false] ∧ interpolating.ReadAs "\"\x7ba\x7d\"\n" [true] := by
  obtain ⟨braced, interpolating⟩ := answered_braced
  exact ⟨braced.readAs 40 (by decide +kernel), interpolating.readAs 40 (by decide +kernel)⟩

end Input

theorem print_injective_continued :
    ∃ file other,
      ((parse Input.continued.settings Input.continued.cancelled Input.continued.source).file? =
          some file ∧
        (parse Input.empty.settings Input.empty.cancelled Input.empty.source).file? =
          some other ∧
        file.Plain ∧ other.Plain ∧ file.print = other.print) ∧
      file.bare = other.bare := by
  obtain ⟨answeredOther, answered⟩ := Input.answered_plain
  obtain ⟨⟨other, readOther, noFloatOther, printOther, _⟩, ⟨file, read, noFloat, print, _⟩⟩ :=
    Input.readAs_plain
  have plain : file.Plain :=
    ⟨noFloat, noBrace_walk read (answered.tokens_eq ▸ by decide +kernel)⟩
  have plainOther : other.Plain :=
    ⟨noFloatOther, noBrace_walk readOther (answeredOther.tokens_eq ▸ by decide +kernel)⟩
  have same : file.print = other.print := print.trans printOther.symm
  exact ⟨file, other, ⟨read, readOther, plain, plainOther, same⟩,
    print_injective read readOther plain plainOther same⟩

/-- Nothing is printed of a fragment without text, and a brace in a text is printed as it is. -/
theorem confused_strings :
    Input.continued.Confused Input.empty ∧ Input.braced.Confused Input.interpolating :=
  ⟨Input.readAs_plain.2.confused Input.readAs_plain.1 (by decide),
    Input.readAs_braced.1.confused Input.readAs_braced.2 (by decide)⟩

end Offside
