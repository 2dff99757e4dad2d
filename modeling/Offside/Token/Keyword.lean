/-!
Reserved words.
-/

namespace Offside

/-- The words that are neither identifiers nor literals. The first ten start a declaration. -/
inductive Keyword
  | definition
  | data
  | function
  | entity
  | enumeration
  | variant
  | error
  | test
  | external
  | exported
  | throw
  | switch
  | or
  | and
  | not
deriving DecidableEq, Repr, Inhabited

namespace Keyword

def all : List Keyword :=
  [.definition, .data, .function, .entity, .enumeration, .variant, .error, .test, .external,
    .exported, .throw, .switch, .or, .and, .not]

def spelling : Keyword → String
  | definition => "def"
  | data => "data"
  | function => "func"
  | entity => "entity"
  | enumeration => "enum"
  | variant => "variant"
  | error => "error"
  | test => "test"
  | external => "extern"
  | exported => "export"
  | throw => "throw"
  | switch => "switch"
  | or => "or"
  | and => "and"
  | not => "not"

def name : Keyword → String
  | definition => "Def"
  | data => "Data"
  | function => "Func"
  | entity => "Entity"
  | enumeration => "Enum"
  | variant => "Variant"
  | error => "Error"
  | test => "Test"
  | external => "Extern"
  | exported => "Export"
  | throw => "Throw"
  | switch => "Switch"
  | or => "Or"
  | and => "And"
  | not => "Not"

/-- A word that starts a declaration. Declarations have no grammar of their own yet. -/
def declares : Keyword → Bool
  | throw | switch | or | and | not => false
  | _ => true

theorem mem_all (keyword : Keyword) : keyword ∈ all := by
  cases keyword <;> decide

theorem spelling_injective {left right : Keyword} (same : left.spelling = right.spelling) :
    left = right := by
  cases left <;> cases right <;> first | rfl | exact absurd same (by decide)

end Keyword

end Offside
