/-!
What a parse can be configured with.
-/

namespace Offside

/-- How source texts are read. A tab counts for at least one column. -/
structure Settings where
  tabWidth : Nat := 8
  /-- Names that are known to be types, which decides how their calls are read. -/
  typeNames : List String := []
  tabWidth_pos : 0 < tabWidth := by decide
deriving Repr

instance : Inhabited Settings :=
  ⟨{}⟩

inductive SettingsError
  | zeroTabWidth
deriving DecidableEq, Repr, Inhabited

def SettingsError.message : SettingsError → String
  | zeroTabWidth => "tab width must be at least 1"

namespace Settings

/-- The columns a tab counts for unless another number is given. -/
def defaultTabWidth : Nat :=
  8

def make (tabWidth : Nat) (typeNames : List String) : Except SettingsError Settings :=
  if positive : 0 < tabWidth then .ok ⟨tabWidth, typeNames, positive⟩ else .error .zeroTabWidth

def isTypeName (settings : Settings) (name : String) : Bool :=
  settings.typeNames.contains name

end Settings

end Offside
