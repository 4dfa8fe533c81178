import SdlAssembly.Annotated.Entities
import SdlAssembly.Annotated.LeafTypes
import SdlAssembly.Annotated.Printer
import SdlAssembly.Model.Build

/-!
# The schema of a model with its metadata

A built schema takes its metadata from the registries of the model: the leaf types first, then the
keys of its entities. Composing prints the result as one document.
-/

namespace SdlAssembly.Model

open Grammar Schemas Annotated

/-- Attaches what a model knows to a schema. -/
def TypeSystem.attach (model : TypeSystem) (schema : Schema) : Logged AnnotatedSchema :=
  (AnnotatedSchema.attachLeafTypes model.leafTypes { schema := schema }).attachEntityKeys
    model.entityPatterns

/-- The schema of a model with its metadata. -/
def TypeSystem.annotated (model : TypeSystem) : Logged (Except BuildFailure AnnotatedSchema) :=
  model.build.andThen fun
    | .error failure => ⟨.error failure, []⟩
    | .ok schema => (model.attach schema).map .ok

/-- Why a model cannot be composed. -/
inductive CompositionFailure where
  | build (failure : BuildFailure)
  | print (failure : ComposeFailure)
  deriving Repr, BEq

/-- The schema of a model with its metadata, as one document. -/
def TypeSystem.compose (model : TypeSystem) : Logged (Except CompositionFailure String) :=
  model.annotated.map fun
    | .error failure => .error (.build failure)
    | .ok annotated => annotated.print.mapError .print

end SdlAssembly.Model
