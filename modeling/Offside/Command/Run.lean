import Offside.Command.Arguments
import Offside.Report
import Offside.Syntax.Census
import Offside.Syntax.Print
import Offside.Tokenize

/-!
What the command line does: it reads files, prints what it was asked to for each and reports
their diagnostics. Files are read by an action that is given, and everything else is a function.
-/

namespace Offside.Command

inductive ReadError
  | notFound
  | permissionDenied
  | notDirectory
  | isDirectory
  | notText
  | other (message : String)
deriving DecidableEq, Repr, Inhabited

def ReadError.message : ReadError → String
  | notFound => "No such file or directory (os error 2)"
  | permissionDenied => "Permission denied (os error 13)"
  | notDirectory => "Not a directory (os error 20)"
  | isDirectory => "Is a directory (os error 21)"
  | notText => "stream did not contain valid UTF-8"
  | other message => message

/-- What a run has written and how it ended. -/
structure Outcome where
  exitCode : Nat
  output : String
  report : String
  /-- Why the run failed, the outermost reason first. -/
  reasons : List String
deriving DecidableEq, Repr, Inhabited

namespace Outcome

def failure (reasons : List String) : Outcome :=
  ⟨1, "", "", reasons⟩

def refusal (error : UsageError) : Outcome :=
  ⟨2, "", s!"error: {error.message}\n", []⟩

def notice (text : String) : Outcome :=
  ⟨0, text ++ "\n", "", []⟩

end Outcome

structure Program where
  name : String
  version : String

namespace Program

/-- The variable of the environment that holds the tab width to use unless an option gives one. -/
def tabWidthVariable (program : Program) : String :=
  program.name.map Char.toUpper ++ "_TAB_WIDTH"

def usage (program : Program) : String :=
  "Parses source files and reports their diagnostics\n\n" ++
    s!"Usage: {program.name} [OPTIONS] <source file>...\n\n" ++
    "Options:\n" ++
    "  -v                       Log more, can be repeated\n" ++
    "  -q                       Log less, can be repeated\n" ++
    "      --tab-width <COUNT>  How many columns a tab counts for\n" ++
    "      --type <NAME>        Registers a known type name, can be repeated\n" ++
    "      --emit <EMIT>        What to print for every file: ast, tokens or stats\n" ++
    "  -h, --help               Print help\n" ++
    "  -V, --version            Print version"

def stopped (program : Program) : Stop → Outcome
  | .refused error => .refusal error
  | .help => .notice program.usage
  | .version => .notice (program.name ++ " " ++ program.version)

end Program

/-- What is printed for a file. Without a tree there is nothing to print but tokens. -/
def Emit.text (emit : Emit) (settings : Settings) (file : SourceFile) : String :=
  let heading := s!"// {file.name}\n"
  match emit, file.parsed.file? with
  | .tree, some parsed => heading ++ parsed.print
  | .census, some parsed => heading ++ (Census.ofFile parsed).print ++ "\n"
  | .tree, none => ""
  | .census, none => ""
  | .tokens, _ =>
    let tokens := (tokenize settings false file.source).tokens
    heading ++ String.join (tokens.map fun token =>
      s!"{token.span.first.lineColumn} {token.listing}\n")

/-- What a run writes for the files it has read. It fails if there are errors in any of them. -/
def outcome (options : Options) (settings : Settings) (files : List SourceFile) : Outcome :=
  let printed (file : SourceFile) : String :=
    match options.emit with
    | some emit => emit.text settings file
    | none => ""
  let diagnostics (file : SourceFile) : String :=
    String.join (file.parsed.diagnostics.map file.render)
  let summary := match Report.summary? files with
    | some summary => summary ++ "\n"
    | none => ""
  let failed := files.countP fun file => file.parsed.hasErrors
  { exitCode := if failed = 0 then 0 else 1
    output := String.join (files.map printed)
    report := String.join (files.map diagnostics) ++ summary
    reasons := if failed = 0 then [] else [s!"{failed} file(s) could not be parsed"] }

/-- Reads files up to the first that can not be read. -/
def readFiles {m : Type → Type} [Monad m] (read : String → m (Except ReadError String))
    (settings : Settings) : List String → m (Except (List String) (List SourceFile))
  | [] => return .ok []
  | name :: names => do
    match ← read name with
    | .error error => return .error [s!"could not read {name}", error.message]
    | .ok text =>
      let others ← readFiles read settings names
      return others.map (SourceFile.ofSource settings false name text.toList :: ·)

def run {m : Type → Type} [Monad m] (program : Program) (environment : Option String)
    (read : String → m (Except ReadError String)) (arguments : List String) : m Outcome := do
  match Options.ofArguments environment arguments with
  | .error stop => return program.stopped stop
  | .ok options =>
    match options.settings with
    | .error error => return .failure [error.message]
    | .ok settings =>
      match ← readFiles read settings options.files with
      | .error reasons => return .failure reasons
      | .ok files => return outcome options settings files

end Offside.Command
