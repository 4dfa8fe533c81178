import SdlAssembly.Grammar.Parser.Selection

/-!
# Parsing documents

A document is one definition or more: operations, fragments, and definitions and extensions of the
type system. Definitions may carry a description; extensions and shorthand queries may not.
-/

namespace SdlAssembly.Grammar.Parser

/-! ## Parts -/

def description : Parser (Option Description) := do
  match (← current).lexeme with
  | .string text block => advance *> return some ⟨text, block⟩
  | _ => return none

def constantDirectives : Parser (List Directive) := directives true deepest

def namedType : Parser String := name

def operationKind : Parser OperationKind := do
  let token ← current
  let keyword ← name
  match OperationKind.ofKeyword? keyword with
  | some kind => return kind
  | none => unexpected token

def default? : Parser (Option Value) := do
  if ← skip .equals then some <$> value true deepest else return none

/-! ## Executable definitions -/

def variableDefinition : Parser VariableDefinition := do
  let description ← description
  expect .dollar
  let name ← name
  expect .colon
  let type ← typeRef deepest
  let default ← default?
  return ⟨description, name, type, default, ← constantDirectives⟩

/-- The name of an operation, which may have none. -/
def operationName : Parser (Option String) := do
  if ← seesName then some <$> name else return none

def operation : Parser Operation := do
  if ← sees .braceOpen then
    return ⟨none, .query, none, [], [], ← selectionSet deepest⟩
  else
    let description ← description
    let kind ← operationKind
    let name ← operationName
    let variableDefinitions ← optionalMany .parenOpen .parenClose variableDefinition
    let directives ← directives false deepest
    return ⟨description, kind, name, variableDefinitions, directives, ← selectionSet deepest⟩

def fragment : Parser Fragment := do
  let description ← description
  keyword "fragment"
  let name ← fragmentName
  keyword "on"
  let condition ← namedType
  let directives ← directives false deepest
  return ⟨description, name, condition, directives, ← selectionSet deepest⟩

/-! ## Members of types -/

def inputDefinition : Parser InputDefinition := do
  let description ← description
  let name ← name
  expect .colon
  let type ← typeRef deepest
  let default ← default?
  return ⟨description, name, type, default, ← constantDirectives⟩

def argumentDefinitions : Parser (List InputDefinition) :=
  optionalMany .parenOpen .parenClose inputDefinition

def fieldDefinition : Parser FieldDefinition := do
  let description ← description
  let name ← name
  let arguments ← argumentDefinitions
  expect .colon
  let type ← typeRef deepest
  return ⟨description, name, arguments, type, ← constantDirectives⟩

/-- The name of an enum value, which may not be that of another literal. -/
def enumValueName : Parser String := do
  let token ← current
  if ["true", "false", "null"].any fun word => token.lexeme.text? == some word then
    failAt token (.reservedEnumValue token.lexeme)
  else name

def enumValueDefinition : Parser EnumValueDefinition := do
  let description ← description
  let name ← enumValueName
  return ⟨description, name, ← constantDirectives⟩

def interfaces : Parser (List String) := do
  if ← skipKeyword "implements" then separated .ampersand namedType else return []

def fields : Parser (List FieldDefinition) := optionalMany .braceOpen .braceClose fieldDefinition

def members : Parser (List String) := do
  if ← skip .equals then separated .pipe namedType else return []

def enumValues : Parser (List EnumValueDefinition) :=
  optionalMany .braceOpen .braceClose enumValueDefinition

def inputFields : Parser (List InputDefinition) :=
  optionalMany .braceOpen .braceClose inputDefinition

/-! ## Type definitions and extensions -/

/-- The kinds of types, by the keyword that starts their definitions. -/
inductive TypeKind where
  | scalar | object | interface | union | enum | inputObject
  deriving Repr, BEq, DecidableEq

def TypeKind.ofKeyword? : String → Option TypeKind
  | "scalar" => some scalar
  | "type" => some object
  | "interface" => some interface
  | "union" => some union
  | "enum" => some enum
  | "input" => some inputObject
  | _ => none

/-- What follows the name in a definition or extension: the directives and the body. -/
def typeBody : TypeKind → Parser (List Directive × TypeBody)
  | .scalar => return (← constantDirectives, .scalar)
  | .object => do
    let interfaces ← interfaces
    let directives ← constantDirectives
    return (directives, .object interfaces (← fields))
  | .interface => do
    let interfaces ← interfaces
    let directives ← constantDirectives
    return (directives, .interface interfaces (← fields))
  | .union => do
    let directives ← constantDirectives
    return (directives, .union (← members))
  | .enum => do
    let directives ← constantDirectives
    return (directives, .enum (← enumValues))
  | .inputObject => do
    let directives ← constantDirectives
    return (directives, .inputObject (← inputFields))

/-- Whether a body has nothing in it. -/
def bodyIsEmpty : TypeBody → Bool
  | .scalar => true
  | .object interfaces fields | .interface interfaces fields =>
    interfaces.isEmpty && fields.isEmpty
  | .union members => members.isEmpty
  | .enum values => values.isEmpty
  | .inputObject fields => fields.isEmpty

def typeDefinition (kind : TypeKind) : Parser TypeNode := do
  let description ← description
  discard advance
  let name ← name
  let (directives, body) ← typeBody kind
  return ⟨description, name, directives, body⟩

/-- An extension adds a directive or something in its body. -/
def typeExtension (kind : TypeKind) : Parser TypeNode := do
  discard advance
  discard advance
  let name ← name
  let (directives, body) ← typeBody kind
  if directives.isEmpty && bodyIsEmpty body then do unexpected (← current)
  else return ⟨none, name, directives, body⟩

/-! ## Schema definitions and extensions -/

def rootBinding : Parser RootBinding := do
  let operation ← operationKind
  expect .colon
  return ⟨operation, ← namedType⟩

def schemaDefinition : Parser SchemaNode := do
  let description ← description
  keyword "schema"
  let directives ← constantDirectives
  let roots ← many .braceOpen .braceClose rootBinding
  return ⟨description, directives, roots⟩

def schemaExtension : Parser SchemaNode := do
  keyword "extend"
  keyword "schema"
  let directives ← constantDirectives
  let roots ← optionalMany .braceOpen .braceClose rootBinding
  if directives.isEmpty && roots.isEmpty then do unexpected (← current)
  else return ⟨none, directives, roots⟩

/-! ## Directive definitions -/

/-- The places where a directive may be allowed. -/
def directiveLocations : List String :=
  ["QUERY", "MUTATION", "SUBSCRIPTION", "FIELD", "FRAGMENT_DEFINITION", "FRAGMENT_SPREAD",
    "INLINE_FRAGMENT", "VARIABLE_DEFINITION", "SCHEMA", "SCALAR", "OBJECT", "FIELD_DEFINITION",
    "ARGUMENT_DEFINITION", "INTERFACE", "UNION", "ENUM", "ENUM_VALUE", "INPUT_OBJECT",
    "INPUT_FIELD_DEFINITION", "DIRECTIVE_DEFINITION"]

def directiveLocation : Parser String := do
  let token ← current
  let name ← name
  if directiveLocations.contains name then return name else unexpected token

def directiveDefinition : Parser DirectiveDefinition := do
  let description ← description
  keyword "directive"
  expect .atSign
  let name ← name
  let arguments ← argumentDefinitions
  let repeatable ← skipKeyword "repeatable"
  keyword "on"
  let locations ← separated .pipe directiveLocation
  return ⟨description, name, arguments, repeatable, locations⟩

/-! ## Definitions -/

/-- An extension, by the word after the keyword. -/
def extension : Parser Definition := do
  let token ← upcoming
  match token.lexeme with
  | .name "schema" => .schemaExtension <$> schemaExtension
  | .name word =>
    match TypeKind.ofKeyword? word with
    | some kind => .typeExtension <$> typeExtension kind
    | none => unexpected token
  | _ => unexpected token

/-- Whether a token is a description. -/
def isDescription (token : Token) : Bool :=
  match token.lexeme with
  | .string _ _ => true
  | _ => false

/-- A definition whose first token and whose word are given; they differ if it is described. -/
def definitionBy (first word : Token) : Parser Definition :=
  match word.lexeme with
  | .name text =>
    match TypeKind.ofKeyword? text with
    | some kind => .type <$> typeDefinition kind
    | none =>
      if text == "schema" then .schema <$> schemaDefinition
      else if text == "directive" then .directive <$> directiveDefinition
      else if (OperationKind.ofKeyword? text).isSome then .operation <$> operation
      else if text == "fragment" then .fragment <$> fragment
      else if isDescription first then failAt first .misplacedDescription
      else if text == "extend" then extension
      else unexpected word
  | _ => unexpected word

/-- A definition, by its first word after a description. -/
def definition : Parser Definition := do
  let first ← current
  if first.lexeme == .punctuator .braceOpen then .operation <$> operation
  else if isDescription first then
    let word ← upcoming
    if word.lexeme == .punctuator .braceOpen then failAt first .describedShorthand
    else definitionBy first word
  else definitionBy first first

/-- Definitions up to the end of the text, counted by `bound`. -/
def definitionsUpTo : (bound : List Token) → Parser (List Definition)
  | [] => do unexpected (← current)
  | _ :: bound => do
    let first ← definition
    if (← current).lexeme == .endOfText then return [first]
    else return first :: (← definitionsUpTo bound)

/-- One definition or more. -/
def definitions : Parser (List Definition) := do definitionsUpTo (← bound)

end SdlAssembly.Grammar.Parser

namespace SdlAssembly.Grammar

open Text

/-- The name that messages give to a text without one. -/
def unnamedSource : String := "GraphQL request"

/-- Reads a document; positions are kept if `located`. -/
def parseDocument (source : Source) (located : Bool := true) : Except SyntaxError Document := do
  let definitions ← Parser.definitions.readAll source located
  return ⟨definitions, if located then some source.name else none⟩

end SdlAssembly.Grammar
