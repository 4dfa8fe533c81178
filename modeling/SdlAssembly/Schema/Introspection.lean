import SdlAssembly.Schema.Type

/-!
# Standard types and directives

The built-in scalars, the types that describe a schema, and the directives that need no definition.
-/

namespace SdlAssembly.Schemas

open Grammar

/-! ## Writing references -/

private def one (name : String) : TypeRef := .named name

private def must (name : String) : TypeRef := .nonNull (.named name)

private def many (name : String) : TypeRef := .list (must name)

private def mustMany (name : String) : TypeRef := .nonNull (many name)

private def plain (name : String) (type : TypeRef) : Field := { name := name, type := type }

/-- The argument that asks for deprecated members too. -/
private def withDeprecated : InputField :=
  { name := "includeDeprecated", type := one "Boolean", default := some (.boolean false) }

private def listing (name : String) (type : TypeRef) : Field :=
  { name := name, arguments := [withDeprecated], type := type }

private def object (name : String) (fields : List Field) : NamedType :=
  { name := name, shape := .object [] fields }

private def enumOf (name : String) (values : List String) : NamedType :=
  { name := name, shape := .enum (values.map fun value => { name := value }) }

/-! ## Types -/

def introspectionSchema : List NamedType :=
  [object "__Schema"
      [plain "description" (one "String"), plain "types" (mustMany "__Type"),
        plain "queryType" (must "__Type"), plain "mutationType" (one "__Type"),
        plain "subscriptionType" (one "__Type"), listing "directives" (mustMany "__Directive")],
    object "__Directive"
      [plain "name" (must "String"), plain "description" (one "String"),
        plain "isRepeatable" (must "Boolean"), plain "locations" (mustMany "__DirectiveLocation"),
        listing "args" (mustMany "__InputValue"), plain "isDeprecated" (must "Boolean"),
        plain "deprecationReason" (one "String")],
    enumOf "__DirectiveLocation"
      ["QUERY", "MUTATION", "SUBSCRIPTION", "FIELD", "FRAGMENT_DEFINITION", "FRAGMENT_SPREAD",
        "INLINE_FRAGMENT", "VARIABLE_DEFINITION", "SCHEMA", "SCALAR", "OBJECT",
        "FIELD_DEFINITION", "ARGUMENT_DEFINITION", "INTERFACE", "UNION", "ENUM", "ENUM_VALUE",
        "INPUT_OBJECT", "INPUT_FIELD_DEFINITION", "DIRECTIVE_DEFINITION"],
    object "__Type"
      [plain "kind" (must "__TypeKind"), plain "name" (one "String"),
        plain "description" (one "String"), plain "specifiedByURL" (one "String"),
        listing "fields" (many "__Field"), plain "interfaces" (many "__Type"),
        plain "possibleTypes" (many "__Type"), listing "enumValues" (many "__EnumValue"),
        listing "inputFields" (many "__InputValue"), plain "ofType" (one "__Type"),
        plain "isOneOf" (one "Boolean")],
    object "__Field"
      [plain "name" (must "String"), plain "description" (one "String"),
        listing "args" (mustMany "__InputValue"), plain "type" (must "__Type"),
        plain "isDeprecated" (must "Boolean"), plain "deprecationReason" (one "String")],
    object "__InputValue"
      [plain "name" (must "String"), plain "description" (one "String"),
        plain "type" (must "__Type"), plain "defaultValue" (one "String"),
        plain "isDeprecated" (must "Boolean"), plain "deprecationReason" (one "String")],
    object "__EnumValue"
      [plain "name" (must "String"), plain "description" (one "String"),
        plain "isDeprecated" (must "Boolean"), plain "deprecationReason" (one "String")],
    enumOf "__TypeKind"
      ["SCALAR", "OBJECT", "INTERFACE", "UNION", "ENUM", "INPUT_OBJECT", "LIST", "NON_NULL"]]

/-- The types that need no definition. -/
def standardTypes : List NamedType :=
  builtinScalars.map (fun name => { name := name, shape := .scalar none }) ++ introspectionSchema

def standardType? (name : String) : Option NamedType :=
  standardTypes.find? fun t => t.name == name

/-- The type from which clients explore a schema; every schema has it. -/
def introspectionRoot : String := "__Schema"

/-! ## Directives -/

/-- The reason of a deprecation that gives none. -/
def defaultReason : String := "No longer supported"

def deprecatedDirective : String := "deprecated"

def specifiedByDirective : String := "specifiedBy"

def oneOfDirective : String := "oneOf"

private def conditional (name : String) : DirectiveType :=
  { name := name
    arguments := [{ name := "if", type := must "Boolean" }]
    locations := ["FIELD", "FRAGMENT_SPREAD", "INLINE_FRAGMENT"] }

/-- The directives that need no definition. -/
def standardDirectives : List DirectiveType :=
  [conditional "include",
    conditional "skip",
    { name := deprecatedDirective
      arguments :=
        [{ name := "reason", type := one "String", default := some (.string defaultReason) }]
      locations :=
        ["FIELD_DEFINITION", "ARGUMENT_DEFINITION", "INPUT_FIELD_DEFINITION", "ENUM_VALUE"] },
    { name := specifiedByDirective
      arguments := [{ name := "url", type := must "String" }]
      locations := ["SCALAR"] },
    { name := oneOfDirective, locations := ["INPUT_OBJECT"] }]

def isStandardDirective (name : String) : Bool :=
  standardDirectives.any fun directive => directive.name == name

end SdlAssembly.Schemas
