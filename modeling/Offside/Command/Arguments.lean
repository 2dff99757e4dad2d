import Offside.Command.Options
import Offside.Text.Class

/-!
Reading the arguments of a command line, from left to right. An argument takes effect when it is
known that no other belongs to it: a file when something else than a file follows, an option when
its value is there and the next argument follows. So the first of several faults is the one that
takes effect first, and an argument that nothing is known of comes before what waits.
-/

namespace Offside.Command

/-- Arguments that wait to take effect. -/
inductive Waiting
  | nothing
  | setting (setting : Setting) (value : Option String)
  | files (names : List String)
deriving DecidableEq, Repr, Inhabited

/-- An argument by its form. -/
inductive Argument
  /-- Two dashes alone, after which there are only files. -/
  | separator
  | long (name : String) (value : Option String)
  | short (letters : List Char)
  | plain (text : String)
deriving DecidableEq, Repr, Inhabited

namespace Argument

def splitValue (text : List Char) : String × Option String :=
  let name := String.ofList (text.takeWhile (· ≠ '='))
  match text.dropWhile (· ≠ '=') with
  | [] => (name, none)
  | _ :: value => (name, some (String.ofList value))

def ofString (text : String) : Argument :=
  match text.toList with
  | ['-', '-'] => separator
  | '-' :: '-' :: rest =>
    let (name, value) := splitValue rest
    long name value
  | '-' :: letter :: letters => short (letter :: letters)
  | _ => plain text

end Argument

/-- A number that fits a word of 64 bits, in decimal digits, which a plus sign may precede. -/
def readWord (text : String) : Option Nat :=
  let digits := match text.toList with
    | '+' :: digits => digits
    | digits => digits
  let value := Text.numberOf 10 digits
  if digits ≠ [] ∧ digits.all Text.isDigit ∧ value < Nat.pow 2 64 then some value else none

namespace Options

/-- The options once a setting has got a value. All but type names have one at most. -/
def set (options : Options) (setting : Setting) (value : String) :
    Except UsageError Options :=
  match setting with
  | .typeName => .ok { options with typeNames := options.typeNames ++ [value] }
  | .tabWidth =>
    if options.tabWidth.isSome then .error (.repeated .tabWidth)
    else
      match readWord value with
      | some width => .ok { options with tabWidth := some width }
      | none => .error (.badTabWidth value)
  | .emit =>
    if options.emit.isSome then .error (.repeated .emit)
    else
      match Emit.ofWord? value with
      | some emit => .ok { options with emit := some emit }
      | none => .error (.unknownEmit value)

def addFiles (options : Options) (names : List String) : Except UsageError Options :=
  if names.contains "" then .error .emptyFileName
  else .ok { options with files := options.files ++ names }

def raise (options : Options) : Except UsageError Options :=
  if 2 ≤ options.louder then .error (.tooOften 'v')
  else .ok { options with louder := options.louder + 1 }

def lower (options : Options) : Except UsageError Options :=
  if 2 ≤ options.quieter then .error (.tooOften 'q')
  else .ok { options with quieter := options.quieter + 1 }

end Options

/-- The options read so far, and what waits. -/
structure Reading where
  options : Options := {}
  waiting : Waiting := .nothing
deriving DecidableEq, Repr, Inhabited

namespace Reading

def refuse {α : Type} : Except UsageError α → Except Stop α :=
  Except.mapError .refused

def resolve (reading : Reading) : Except Stop Options :=
  match reading.waiting with
  | .nothing => .ok reading.options
  | .setting setting none => .error (.refused (.missingValue setting))
  | .setting setting (some value) => refuse (reading.options.set setting value)
  | .files names => refuse (reading.options.addFiles names)

/-- What a name after two dashes stands for. -/
inductive Meaning
  | setting (setting : Setting)
  | stop (stop : Stop)

def meaning? (name : String) : Option Meaning :=
  if name = "tab-width" then some (.setting .tabWidth)
  else if name = "type" then some (.setting .typeName)
  else if name = "emit" then some (.setting .emit)
  else if name = "help" then some (.stop .help)
  else if name = "version" then some (.stop .version)
  else none

def long (reading : Reading) (name : String) (value : Option String) : Except Stop Reading :=
  match meaning? name, value with
  | none, _ => .error (.refused (.unknownArgument ("--" ++ name)))
  | some (.setting setting), none => do
    let options ← reading.resolve
    return ⟨options, .setting setting none⟩
  | some (.setting setting), some value => do
    let options ← refuse ((← reading.resolve).set setting value)
    return ⟨options, .nothing⟩
  | some (.stop _), some _ => .error (.refused (.unneededValue ("--" ++ name)))
  | some (.stop stop), none => do
    discard reading.resolve
    throw stop

def letter (reading : Reading) (c : Char) : Except Stop Reading := do
  if c = 'v' then
    return ⟨← refuse (← reading.resolve).raise, .nothing⟩
  else if c = 'q' then
    return ⟨← refuse (← reading.resolve).lower, .nothing⟩
  else if c = 'h' then
    discard reading.resolve
    throw .help
  else if c = 'V' then
    discard reading.resolve
    throw .version
  else
    throw (.refused (.unknownArgument (String.ofList ['-', c])))

def file (reading : Reading) (name : String) : Except Stop Reading :=
  match reading.waiting with
  | .files names => .ok { reading with waiting := .files (names ++ [name]) }
  | _ => do
    let options ← reading.resolve
    return ⟨options, .files [name]⟩

/-- An argument that is no option: the value that an option waits for, or a file. -/
def plain (reading : Reading) (text : String) : Except Stop Reading :=
  match reading.waiting with
  | .setting setting none => .ok { reading with waiting := .setting setting (some text) }
  | _ => reading.file text

def readAll (reading : Reading) : List String → Except Stop Reading
  | [] => .ok reading
  | text :: texts =>
    match Argument.ofString text with
    | .separator => texts.foldlM file reading
    | .long name value => do readAll (← reading.long name value) texts
    | .short letters => do readAll (← letters.foldlM letter reading) texts
    | .plain text => do readAll (← reading.plain text) texts

end Reading

namespace Options

/-- The options with the tab width that the environment asks for, unless they have one. -/
def fromEnvironment (options : Options) (tabWidth : Option String) : Except UsageError Options :=
  match options.tabWidth, tabWidth with
  | none, some text => options.set .tabWidth text
  | _, _ => .ok options

def checked (options : Options) : Except UsageError Options :=
  if 0 < options.louder ∧ 0 < options.quieter then .error .louderAndQuieter
  else if options.files = [] then .error .missingFiles
  else .ok options

/-- What the arguments of a command line ask for, given the tab width that the environment asks
for. -/
def ofArguments (environment : Option String) (arguments : List String) : Except Stop Options := do
  let reading ← Reading.readAll {} arguments
  let options ← reading.resolve
  Reading.refuse (options.fromEnvironment environment >>= checked)

end Options

end Offside.Command
