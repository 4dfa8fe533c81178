import SdlAssembly.Grammar.Tree

/-!
# Walking through definitions

What the rules on definitions see, in the order in which a walk through a document meets it: every
node before its parts, and the end of a directive after them.
-/

namespace SdlAssembly.Schemas.Rules

open Grammar

/-! ## Places of directives -/

/-- The node that directives are written on. -/
inductive Site where
  | operation (kind : OperationKind)
  | variable | field | fragmentSpread | inlineFragment | fragment
  | schema
  | type (name : String) (body : TypeBody)
  | fieldDefinition | argumentDefinition | inputFieldDefinition | enumValue
  deriving Repr, BEq

/-- The name of the place in a directive definition. -/
def Site.location : Site → String
  | operation .query => "QUERY"
  | operation .mutation => "MUTATION"
  | operation .subscription => "SUBSCRIPTION"
  | .variable => "VARIABLE_DEFINITION"
  | field => "FIELD"
  | fragmentSpread => "FRAGMENT_SPREAD"
  | inlineFragment => "INLINE_FRAGMENT"
  | fragment => "FRAGMENT_DEFINITION"
  | schema => "SCHEMA"
  | type _ .scalar => "SCALAR"
  | type _ (.object _ _) => "OBJECT"
  | type _ (.interface _ _) => "INTERFACE"
  | type _ (.union _) => "UNION"
  | type _ (.enum _) => "ENUM"
  | type _ (.inputObject _) => "INPUT_OBJECT"
  | fieldDefinition => "FIELD_DEFINITION"
  | argumentDefinition => "ARGUMENT_DEFINITION"
  | inputFieldDefinition => "INPUT_FIELD_DEFINITION"
  | enumValue => "ENUM_VALUE"

/-- The name of the place in a message. -/
def Site.describe (site : Site) : String :=
  site.location.map fun c => if c == '_' then ' ' else c.toLower

/-! ## Visits -/

inductive Visit where
  | schemaDefinition (node : SchemaNode)
  | schemaExtension (node : SchemaNode)
  | typeDefinition (node : TypeNode)
  | typeExtension (node : TypeNode)
  | directiveDefinition (node : DirectiveDefinition)
  /-- A node with directives, of which there is at least one. -/
  | directives (site : Site) (directives : List Directive)
  /-- The target of a type extension. -/
  | extends (node : TypeNode)
  | reference (name : String) (inTypeSystem : Bool)
  | selectedField (arguments : List Argument)
  | directive (site : Site) (directive : Directive)
  | directiveEnd (directive : Directive)
  /-- A field of an object literal, and whether it was given before. -/
  | objectField (name : String) (again : Bool)
  deriving Repr

/-! ## Values and directives -/

mutual

def ofValue : Value → List Visit
  | .list items => ofItems items
  | .object fields => ofFields [] fields
  | _ => []

def ofItems : List Value → List Visit
  | [] => []
  | item :: rest => ofValue item ++ ofItems rest

/-- The fields of an object literal after the fields of the given names. -/
def ofFields (seen : List String) : List (String × Value) → List Visit
  | [] => []
  | (name, value) :: rest =>
    .objectField name (seen.contains name) :: ofValue value ++ ofFields (name :: seen) rest

end

def ofArguments (arguments : List Argument) : List Visit :=
  arguments.flatMap fun argument => ofValue argument.value

def ofDirective (site : Site) (directive : Directive) : List Visit :=
  .directive site directive :: ofArguments directive.arguments ++ [.directiveEnd directive]

/-- The directives of a node, each with its parts. -/
def ofDirectives (site : Site) (directives : List Directive) : List Visit :=
  directives.flatMap (ofDirective site)

/-- The visit of a node that has directives. -/
def atNode (site : Site) (directives : List Directive) : List Visit :=
  if directives.isEmpty then [] else [.directives site directives]

def ofDefault (default : Option Value) : List Visit :=
  match default with
  | none => []
  | some value => ofValue value

/-! ## Selections -/

mutual

def ofSelection : Selection → List Visit
  | .field _ _ arguments directives selections =>
    atNode .field directives ++ .selectedField arguments :: ofArguments arguments
      ++ ofDirectives .field directives
      ++ match selections with
        | none => []
        | some set => ofSelections set
  | .spread _ directives =>
    atNode .fragmentSpread directives ++ ofDirectives .fragmentSpread directives
  | .inline condition directives selections =>
    atNode .inlineFragment directives
      ++ (condition.map fun name => Visit.reference name false).toList
      ++ ofDirectives .inlineFragment directives ++ ofSelections selections

def ofSelections : List Selection → List Visit
  | [] => []
  | selection :: rest => ofSelection selection ++ ofSelections rest

end

/-! ## Definitions -/

def ofVariable (d : VariableDefinition) : List Visit :=
  atNode .variable d.directives ++ [.reference d.type.core false] ++ ofDefault d.default
    ++ ofDirectives .variable d.directives

def ofInput (site : Site) (d : InputDefinition) : List Visit :=
  atNode site d.directives ++ [.reference d.type.core true] ++ ofDefault d.default
    ++ ofDirectives site d.directives

def ofField (d : FieldDefinition) : List Visit :=
  atNode .fieldDefinition d.directives ++ d.arguments.flatMap (ofInput .argumentDefinition)
    ++ [.reference d.type.core true] ++ ofDirectives .fieldDefinition d.directives

def ofEnumValue (d : EnumValueDefinition) : List Visit :=
  atNode .enumValue d.directives ++ ofDirectives .enumValue d.directives

/-- The parts of a type definition or extension. The fields of an extension of an input object
count as arguments. -/
def ofType (extension : Bool) (node : TypeNode) : List Visit :=
  let site := Site.type node.name node.body
  let directives := ofDirectives site node.directives
  let references (names : List String) := names.map fun name => Visit.reference name true
  atNode site node.directives ++ (if extension then [.extends node] else []) ++
    match node.body with
    | .scalar => directives
    | .object interfaces fields | .interface interfaces fields =>
      references interfaces ++ directives ++ fields.flatMap ofField
    | .union members => directives ++ references members
    | .enum values => directives ++ values.flatMap ofEnumValue
    | .inputObject fields =>
      let site := if extension then Site.argumentDefinition else .inputFieldDefinition
      directives ++ fields.flatMap (ofInput site)

def ofSchema (node : SchemaNode) : List Visit :=
  atNode .schema node.directives ++ ofDirectives .schema node.directives
    ++ node.roots.map fun binding => .reference binding.type true

def ofDefinition : Definition → List Visit
  | .operation d =>
    let site := Site.operation d.kind
    atNode site d.directives ++ d.variableDefinitions.flatMap ofVariable
      ++ ofDirectives site d.directives ++ ofSelections d.selections
  | .fragment d =>
    atNode .fragment d.directives ++ [.reference d.condition false]
      ++ ofDirectives .fragment d.directives ++ ofSelections d.selections
  | .schema node => .schemaDefinition node :: ofSchema node
  | .schemaExtension node => .schemaExtension node :: ofSchema node
  | .directive node =>
    .directiveDefinition node :: node.arguments.flatMap (ofInput .argumentDefinition)
  | .type node => .typeDefinition node :: ofType false node
  | .typeExtension node => .typeExtension node :: ofType true node

/-- The walk through all definitions. -/
def visits (definitions : List Definition) : List Visit := definitions.flatMap ofDefinition

end SdlAssembly.Schemas.Rules
