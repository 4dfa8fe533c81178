import SdlAssembly.Annotated.Metadata

/-!
# Leaf types of a schema

Every scalar and enum of a schema gets an entry: the registered one as it is, or one that makes an
enum its own run time type and any other leaf type a string. The types for introspection get none.
-/

namespace SdlAssembly.Annotated

open Annotation Schemas

/-- The representation of a leaf type that says nothing of its own. -/
def textType : String := "str"

/-- The entry of a leaf type that is not registered. -/
def unregistered (t : NamedType) : LeafType :=
  ⟨t.name, some (if t.isEnum then t.name else textType), some textType⟩

/-- The entry of a leaf type. -/
def leafTypeOf (registry : LeafTypes) (t : NamedType) : LeafType :=
  (registry.get? t.name).getD (unregistered t)

/-- The leaf types of a schema that get entries, in the order of its types. -/
def annotatedLeaves (schema : Schema) : List NamedType :=
  schema.types.filter fun t => t.isLeaf && !isIntrospectionType t.name

def AnnotatedSchema.attachLeafTypes (registry : LeafTypes) (annotated : AnnotatedSchema) :
    AnnotatedSchema :=
  (annotatedLeaves annotated.schema).foldl
    (fun annotated t => annotated.setLeafType t.name (leafTypeOf registry t)) annotated

end SdlAssembly.Annotated
