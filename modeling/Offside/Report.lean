import Offside.Excerpt
import Offside.Parse

/-!
Reports on files that were read: each diagnostic with the lines it is about, and a summary of all
diagnostics.
-/

namespace Offside

/-- A file under the name it was asked for by, and what there is of it. -/
structure SourceFile where
  name : String
  source : List Char
  parsed : Parsed

namespace SourceFile

/-- Reads the text of a file as a tree. -/
def ofSource (settings : Settings) (cancelled : Bool) (name : String) (source : List Char) :
    SourceFile :=
  ⟨name, source, parse settings cancelled source⟩

/-- A diagnostic above the lines of the file that it is about. -/
def render (file : SourceFile) (diagnostic : Diagnostic) : String :=
  Excerpt.render diagnostic.headline file.source file.name (some diagnostic.span)

end SourceFile

namespace Report

def counted (count : Nat) (noun : String) : String :=
  if count = 1 then s!"{count} {noun}" else s!"{count} {noun}s"

/-- How many errors and warnings there are in some files, if there are any. -/
def summary? (files : List SourceFile) : Option String :=
  let diagnostics := files.flatMap fun file => file.parsed.diagnostics
  if diagnostics.isEmpty then none
  else
    let errors := diagnostics.countP Diagnostic.isError
    let warnings := diagnostics.length - errors
    let problems := counted errors "error" ++ " and " ++ counted warnings "warning"
    some (problems ++ " in " ++ counted files.length "file")

end Report

end Offside
