import SdlAssembly.Annotation.EntityKey
import SdlAssembly.Annotation.LeafType
import SdlAssembly.Schema.Type

/-!
# Schemas with metadata

What is known of the types of a schema beyond the schema: how leaf types are represented and by
which fields objects are identified. Entries are in the order in which they were first asked for.
-/

namespace SdlAssembly.Annotated

open Grammar Annotation Schemas

/-! ## Metadata of one type -/

structure Metadata where
  leafType : Option LeafType := none
  entityKey : Option SelectionSet := none
  deriving Repr, BEq, Inhabited

def Metadata.isEntity (m : Metadata) : Bool := m.entityKey.isSome

/-! ## Metadata of a schema -/

structure AnnotatedSchema where
  schema : Schema
  metadata : List (String × Metadata) := []
  deriving Repr, BEq, Inhabited

/-- Changes the entry of a name, which is made at the end if there is none. -/
def change (f : Metadata → Metadata) (name : String) :
    List (String × Metadata) → List (String × Metadata)
  | [] => [(name, f {})]
  | (key, m) :: rest => if key == name then (key, f m) :: rest else (key, m) :: change f name rest

namespace AnnotatedSchema

/-- Changes the metadata of a type. -/
def modify (annotated : AnnotatedSchema) (name : String) (f : Metadata → Metadata) :
    AnnotatedSchema :=
  { annotated with metadata := change f name annotated.metadata }

def setLeafType (annotated : AnnotatedSchema) (name : String) (info : LeafType) :
    AnnotatedSchema :=
  annotated.modify name fun m => { m with leafType := some info }

def setEntityKey (annotated : AnnotatedSchema) (name : String) (key : SelectionSet) :
    AnnotatedSchema :=
  annotated.modify name fun m => { m with entityKey := some key }

/-- The metadata of a type, empty if nothing is known. -/
def metadataOf (annotated : AnnotatedSchema) (name : String) : Metadata :=
  (annotated.metadata.lookup name).getD {}

def leafType? (annotated : AnnotatedSchema) (name : String) : Option LeafType :=
  (annotated.metadataOf name).leafType

def entityKey? (annotated : AnnotatedSchema) (name : String) : Option SelectionSet :=
  (annotated.metadataOf name).entityKey

end AnnotatedSchema

end SdlAssembly.Annotated
