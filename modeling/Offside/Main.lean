import Offside.Command.Run

/-!
The command line program.
-/

namespace Offside.Command

def offside : Program :=
  ⟨"offside", "0.0.0"⟩

/-- The number under which the system tells that a directory can not be read as a file. -/
def directoryCode : UInt32 :=
  21

def readFile (name : String) : IO (Except ReadError String) := do
  try
    let bytes ← IO.FS.readBinFile name
    match String.fromUTF8? bytes with
    | some text => return .ok text
    | none => return .error .notText
  catch error =>
    match error with
    | .noFileOrDirectory .. => return .error .notFound
    | .permissionDenied .. => return .error .permissionDenied
    | .inappropriateType _ code _ =>
      return .error (if code = directoryCode then .isDirectory else .notDirectory)
    | other => return .error (.other (toString other))

end Offside.Command

/-- Writes what a run has to say. A failed run gives its reasons after everything else. -/
def main (arguments : List String) : IO UInt32 := do
  let program := Offside.Command.offside
  let environment ← IO.getEnv program.tabWidthVariable
  let outcome ← Offside.Command.run program environment Offside.Command.readFile arguments
  IO.print outcome.output
  IO.eprint outcome.report
  if outcome.reasons ≠ [] then
    IO.eprintln ("Error: " ++ ": ".intercalate outcome.reasons)
  return outcome.exitCode.toUInt32
