import SdlAssembly.Grammar.Parser.Value

/-!
# Parsing selection sets
-/

namespace SdlAssembly.Grammar.Parser

/-- The name of a fragment, which may not be `on`. -/
def fragmentName : Parser String := do
  let token ← current
  if token.lexeme.text? == some "on" then unexpected token else name

/-- The alias of a field, if it has one, and its name. -/
def fieldName : Parser (Option String × String) := do
  let first ← name
  if ← skip .colon then return (some first, ← name) else return (none, first)

/-- The sub-selections of a field, read by `set` if there are any. -/
def subselections (set : Parser SelectionSet) : Parser (Option SelectionSet) := do
  if ← sees .braceOpen then some <$> set else return none

/-- A field whose sub-selections are read by `set`. -/
def field (levels : Nat) (set : Parser SelectionSet) : Parser Selection := do
  let (aliasName, name) ← fieldName
  let arguments ← arguments false levels
  let directives ← directives false levels
  return .field aliasName name arguments directives (← subselections set)

/-- A fragment spread or an inline fragment whose selections are read by `set`. -/
def spread (levels : Nat) (set : Parser SelectionSet) : Parser Selection := do
  expect .spread
  if ← skipKeyword "on" then
    let condition ← name
    let directives ← directives false levels
    return .inline (some condition) directives (← set)
  else if ← seesName then
    let name ← fragmentName
    return .spread name (← directives false levels)
  else
    let directives ← directives false levels
    return .inline none directives (← set)

/-- A selection set that may nest `levels` deep, itself included. -/
def selectionSet : (levels : Nat) → Parser SelectionSet
  | 0 => tooDeep
  | levels + 1 => many .braceOpen .braceClose do
    if ← sees .spread then spread levels (selectionSet levels)
    else field levels (selectionSet levels)

end SdlAssembly.Grammar.Parser

namespace SdlAssembly.Grammar

open Text

/-- The name that messages give to a selection set of its own. -/
def selectionSourceName : String := "key fields"

/-- Reads the text between the braces of a selection set. The braces are put around it before it is
read, so a place in a message counts the opening one. -/
def parseSelectionSet (fields : String) : Except SelectionFailure SelectionSet :=
  let source : Source := ⟨selectionSourceName, "\x7b" ++ fields ++ "\x7d"⟩
  match (Parser.selectionSet Parser.deepest <* Parser.endOfText).readAll source false with
  | .ok set => .ok set
  | .error ⟨.nestedTooDeep, _⟩ => .error .nestedTooDeep
  | .error e => .error (.rejected e)

end SdlAssembly.Grammar
