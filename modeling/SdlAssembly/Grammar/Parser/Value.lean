import SdlAssembly.Grammar.Parser.Basic

/-!
# Parsing values, directives and type references

Lists, objects, selection sets and list types nest up to a number of levels in all; the parsers
take the levels that are left.
-/

namespace SdlAssembly.Grammar.Parser

/-- The levels that a whole text may nest. -/
def deepest : Nat := 200

def tooDeep : Parser α := do failAt (← current) .nestedTooDeep

/-! ## Values -/

/-- The value that a name stands for. -/
def namedValue : String → Value
  | "true" => .boolean true
  | "false" => .boolean false
  | "null" => .null
  | text => .enum text

/-- A variable; a constant value admits none. -/
def variableValue (constant : Bool) : Parser Value := do
  let dollar ← current
  expect .dollar
  if constant then
    match (← current).lexeme with
    | .name text => failAt dollar (.variableInConstant text)
    | _ => unexpected dollar
  else return .variable (← name)

/-- An object field whose value is read by `value`. -/
def objectField (value : Parser Value) : Parser (String × Value) := do
  let key ← name
  expect .colon
  return (key, ← value)

/-- A value, given the parsers of lists and objects. -/
def valueWith (constant : Bool) (list object : Parser Value) : Parser Value := do
  let token ← current
  match token.lexeme with
  | .punctuator .bracketOpen => list
  | .punctuator .braceOpen => object
  | .punctuator .dollar => variableValue constant
  | .int text => advance *> return .int text
  | .float text => advance *> return .float text
  | .string text block => advance *> return .string text block
  | .name text => advance *> return namedValue text
  | _ => unexpected token

def value (constant : Bool) : (levels : Nat) → Parser Value
  | 0 => valueWith constant tooDeep tooDeep
  | levels + 1 =>
    valueWith constant
      (.list <$> anyNumber .bracketOpen .bracketClose (value constant levels))
      (.object <$> anyNumber .braceOpen .braceClose (objectField (value constant levels)))

/-! ## Arguments and directives -/

def argument (constant : Bool) (levels : Nat) : Parser Argument := do
  let key ← name
  expect .colon
  let start ← current
  return ⟨key, ← value constant levels, start.position⟩

def arguments (constant : Bool) (levels : Nat) : Parser (List Argument) :=
  optionalMany .parenOpen .parenClose (argument constant levels)

def directive (constant : Bool) (levels : Nat) : Parser Directive := do
  let start ← current
  expect .atSign
  let name ← name
  return ⟨name, ← arguments constant levels, start.position⟩

def directives (constant : Bool) (levels : Nat) : Parser (List Directive) :=
  whileSees .atSign (directive constant levels)

/-! ## Type references -/

/-- A reference without a mark, given the parser of list types. -/
def nullableRef (list : Parser TypeRef) : Parser TypeRef := do
  if ← sees .bracketOpen then list else .named <$> name

/-- A reference, non-null if a mark follows, given the parser of list types. -/
def typeRefWith (list : Parser TypeRef) : Parser TypeRef := do
  let inner ← nullableRef list
  if ← skip .bang then return .nonNull inner else return inner

def typeRef : (levels : Nat) → Parser TypeRef
  | 0 => typeRefWith do
    expect .bracketOpen
    tooDeep
  | levels + 1 => typeRefWith do
    expect .bracketOpen
    let item ← typeRef levels
    expect .bracketClose
    return .list item

end SdlAssembly.Grammar.Parser
