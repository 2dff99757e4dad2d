import Offside.Parser

/-!
Whole texts as trees.
-/

namespace Offside

/-- The tree of a text, unless something put an end to the reading of it, and the problems found
in source order. -/
structure Parsed where
  file? : Option (File Span)
  diagnostics : List Diagnostic

namespace Parsed

/-- What there is after a whole text was read. The error that ended the reading is reported after
all others. -/
def ofResult : EStateM.Result Abort ParserState (File Span) → Parsed
  | .ok file after => ⟨some file, Diagnostic.sorted after.reported⟩
  | .error abort after =>
    ⟨none, Diagnostic.sorted (after.reported ++ (abort.error?.map SyntaxError.toDiagnostic).toList)⟩

def hasErrors (parsed : Parsed) : Bool :=
  Diagnostic.anyError parsed.diagnostics

end Parsed

/-- Reads a text as a tree. Every text has an answer: statements that are wrong are left out of
the tree, and only an error of the lexer that nothing can follow, or an error in the last line of
a text without a line break, leaves no tree at all. -/
def parse (settings : Settings) (cancelled : Bool) (source : List Char) : Parsed :=
  Parsed.ofResult (Parser.file (.ofSource settings cancelled source))

end Offside
