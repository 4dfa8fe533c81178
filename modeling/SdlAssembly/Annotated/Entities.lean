import SdlAssembly.Annotated.Metadata

/-!
# Entities of a schema

An object type is an entity if it has a key: the pattern of the type itself, whatever it selects, or
else the first global pattern that fits the type. Root types are no entities. A pattern fits a type
if each field that it selects is there, bare if its type is a leaf type and with a pattern that fits
its type if that is an object or interface.
-/

namespace SdlAssembly.Annotated

open Grammar Annotation Schemas

/-! ## Patterns that fit -/

/-- The type of a member by name. -/
def memberType? (t : NamedType) (name : String) : Option TypeRef :=
  (t.field? name).map (·.type) <|>
    (t.inputFields.find? fun field => field.name == name).map (·.type)

mutual

/-- Whether a type has what a selection selects. -/
def fitsSelection (schema : Schema) : Selection → NamedType → Bool
  | .field _ name _ _ selections, t =>
    match (memberType? t name).bind fun type => schema.type? type.core with
    | none => false
    | some target =>
      match selections with
      | none => target.isLeaf
      | some set => (target.isObject || target.isInterface) && fits schema set target
  | .spread _ _, _ => false
  | .inline _ _ _, _ => false

/-- Whether a pattern fits a type. -/
def fits (schema : Schema) : List Selection → NamedType → Bool
  | [], _ => true
  | selection :: rest, t => fitsSelection schema selection t && fits schema rest t

end

/-! ## Keys -/

/-- The key of an object type, if it has one. -/
def keyOf (schema : Schema) (patterns : EntityPatterns) (t : NamedType) : Option SelectionSet :=
  patterns.types.get? t.name <|> patterns.globals.find? fun pattern => fits schema pattern t

/-- The object types that may be entities, in the order of the types of the schema. -/
def entityCandidates (schema : Schema) : List NamedType :=
  schema.types.filter fun t =>
    t.isObject && !isIntrospectionType t.name && !schema.rootNames.contains t.name

/-- The entities of a schema with their keys. -/
def entities (schema : Schema) (patterns : EntityPatterns) : List (String × SelectionSet) :=
  (entityCandidates schema).filterMap fun t =>
    (keyOf schema patterns t).map fun key => (t.name, key)

def AnnotatedSchema.attachEntityKeys (patterns : EntityPatterns) (annotated : AnnotatedSchema) :
    Logged AnnotatedSchema :=
  (entities annotated.schema patterns).foldl (fun t (name, key) =>
    (t.map fun annotated => annotated.setEntityKey name key).note .debug
      ("Type '" ++ name ++ "' is an entity keyed by '" ++ formatSelectionSet key ++ "'"))
    ⟨annotated, []⟩

end SdlAssembly.Annotated
