/-!
# Standard names

The types that every schema has, under names that documents cannot take.
-/

namespace SdlAssembly.Schemas

/-- The scalars that need no definition. -/
def builtinScalars : List String := ["String", "Int", "Float", "Boolean", "ID"]

/-- The types that describe a schema to its clients. -/
def introspectionTypes : List String :=
  ["__Schema", "__Directive", "__DirectiveLocation", "__Type", "__Field", "__InputValue",
    "__EnumValue", "__TypeKind"]

def isBuiltinScalar (name : String) : Bool := builtinScalars.contains name

def isIntrospectionType (name : String) : Bool := introspectionTypes.contains name

/-- The types whose definitions in a document are replaced by the standard ones. -/
def isStandardType (name : String) : Bool := isBuiltinScalar name || isIntrospectionType name

end SdlAssembly.Schemas
