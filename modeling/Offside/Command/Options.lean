import Offside.Settings

/-!
Options of the command line: what it can be asked to do, and why it may refuse.
-/

namespace Offside.Command

inductive Emit
  | tree
  | tokens
  | census
deriving DecidableEq, Repr, Inhabited

def Emit.word : Emit → String
  | tree => "ast"
  | tokens => "tokens"
  | census => "stats"

def Emit.ofWord? (word : String) : Option Emit :=
  [tree, tokens, census].find? fun emit => emit.word = word

/-- How much is logged. -/
inductive LogLevel
  | off
  | error
  | warn
  | debug
  | trace
deriving DecidableEq, Repr, Inhabited

def LogLevel.name : LogLevel → String
  | off => "off"
  | error => "error"
  | warn => "warn"
  | debug => "debug"
  | trace => "trace"

/-- Options that take a value. -/
inductive Setting
  | tabWidth
  | typeName
  | emit
deriving DecidableEq, Repr, Inhabited

def Setting.flag : Setting → String
  | tabWidth => "--tab-width"
  | typeName => "--type"
  | emit => "--emit"

/-- Why a command line is refused. -/
inductive UsageError
  | missingFiles
  | missingValue (setting : Setting)
  | emptyFileName
  | unknownEmit (word : String)
  | badTabWidth (text : String)
  | tooOften (letter : Char)
  | repeated (setting : Setting)
  | louderAndQuieter
  | unknownArgument (argument : String)
  | unneededValue (flag : String)
deriving DecidableEq, Repr, Inhabited

def UsageError.message : UsageError → String
  | missingFiles => "no source file was given"
  | missingValue setting => s!"{setting.flag} needs a value"
  | emptyFileName => "a file name is empty"
  | unknownEmit word => s!"nothing called '{word}' can be printed: it is ast, tokens or stats"
  | badTabWidth text => s!"'{text}' is not a tab width"
  | tooOften letter => s!"-{letter} can be given twice at most"
  | repeated setting => s!"{setting.flag} can be given only once"
  | louderAndQuieter => "-v and -q exclude each other"
  | unknownArgument argument => s!"unknown argument '{argument}'"
  | unneededValue flag => s!"{flag} takes no value"

/-- What ends the reading of a command line early. -/
inductive Stop
  | refused (error : UsageError)
  | help
  | version
deriving DecidableEq, Repr, Inhabited

structure Options where
  files : List String := []
  tabWidth : Option Nat := none
  typeNames : List String := []
  emit : Option Emit := none
  louder : Nat := 0
  quieter : Nat := 0
deriving DecidableEq, Repr, Inhabited

namespace Options

/-- How much more output was asked for than usual, from -2 to 2. -/
def verbosity (options : Options) : Int :=
  (min options.louder 2 : Nat) - (min options.quieter 2 : Nat)

def logLevel (options : Options) : LogLevel :=
  if options.verbosity ≤ -2 then .off
  else if options.verbosity = -1 then .error
  else if options.verbosity = 0 then .warn
  else if options.verbosity = 1 then .debug
  else .trace

/-- The tab width that was asked for, or the usual one. -/
def chosenTabWidth (options : Options) : Nat :=
  options.tabWidth.getD Settings.defaultTabWidth

def settings (options : Options) : Except SettingsError Settings :=
  Settings.make options.chosenTabWidth options.typeNames

end Options

end Offside.Command
