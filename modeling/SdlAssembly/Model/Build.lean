import SdlAssembly.Model.Assembly
import SdlAssembly.Schema.Roots
import SdlAssembly.Schema.Rules.Check
import SdlAssembly.Schema.Validity

/-!
# The schema of a model

The placeholders are there first and the retained definitions are added to them. With strict
validation the definitions must keep the rules on definitions, and the schema must be valid.
-/

namespace SdlAssembly.Model

open Grammar Schemas

/-! ## Failures -/

/-- Why a model has no schema. -/
inductive BuildFailure where
  | rejected (violations : List String)
  | unbuildable (fault : BuildFault)
  | invalid (violations : List Violation)
  /-- The schema is built, and one of its defaults cannot be written. -/
  | unwritable (cause : Unwritable)
  deriving Repr, BEq

/-- The messages of failed validation: the rules and the building of a schema each give one, and
the checks of a built schema give one for each violation. -/
def BuildFailure.errors : BuildFailure → List String
  | rejected violations => ["\n\n".intercalate violations]
  | unbuildable fault => [fault.message]
  | invalid violations => violations.map Violation.message
  | unwritable cause => [cause.message]

/-- The report of failed validation. -/
def validationReport (errors : List String) : String :=
  "Schema validation failed:\n" ++ "\n".intercalate (errors.map fun e => "  - " ++ e)

def BuildFailure.message (failure : BuildFailure) : String :=
  match failure with
  | unwritable cause => cause.message
  | _ => validationReport failure.errors

/-! ## Definitions and types to build from -/

/-- Whether a definition is left out: a scalar that is built in or has a placeholder. -/
def TypeSystem.replaces (model : TypeSystem) : Definition → Bool
  | .type node =>
    match node.body with
    | .scalar => model.placeholders.contains node.name || isBuiltinScalar node.name
    | _ => false
  | _ => false

/-- The definitions that the schema is built from. -/
def TypeSystem.retained (model : TypeSystem) : List Definition :=
  model.definitions.filter fun d => !model.replaces d

/-- The type of a placeholder; it carries no specification. -/
def Placeholder.type (p : Placeholder) : NamedType :=
  { name := p.name, description := p.description, shape := .scalar none }

/-- The schema of the placeholders alone. -/
def TypeSystem.foundation (model : TypeSystem) : Schema :=
  Schema.ofTypes (model.placeholders.values.map Placeholder.type)

/-! ## Building -/

/-- Adds the retained definitions to the placeholders. -/
def TypeSystem.extended (model : TypeSystem) : Except BuildFailure Schema := do
  let base := model.foundation
  if model.strict then
    match Rules.violations (.ofSchema base) model.retained with
    | [] => pure ()
    | found => throw (.rejected found)
  (base.extend model.retained (!model.strict)).mapError .unbuildable

/-- Gives a schema the root types that it lacks. -/
def assignRoots (schema : Schema) : Logged Schema :=
  match schema.missingRoots with
  | [] => ⟨schema, []⟩
  | missing =>
    Logged.note .debug
      ("Assigned conventional root operation types: "
        ++ ", ".intercalate (missing.map conventionalRoot))
      ⟨schema.withDefaultRoots, []⟩

/-- Checks a built schema, if the model is strict. -/
def TypeSystem.checked (model : TypeSystem) (schema : Schema) : Except BuildFailure Schema :=
  if model.strict then
    match schema.violations with
    | [] => .ok schema
    | found => .error (.invalid found)
  else .ok schema

/-- Reports a schema that is built. -/
def reported (schema : Schema) : Logged (Except BuildFailure Schema) :=
  Logged.andThen
    (Logged.note .info ("Built schema with " ++ toString schema.types.length ++ " types") ⟨(), []⟩)
    fun _ =>
      match printSchema schema with
      | .error cause => ⟨.error (.unwritable cause), []⟩
      | .ok text => Logged.note .debug ("Built schema: \n" ++ text) ⟨.ok schema, []⟩

/-- The schema of a model. -/
def TypeSystem.build (model : TypeSystem) : Logged (Except BuildFailure Schema) :=
  match model.extended with
  | .error failure => ⟨.error failure, []⟩
  | .ok schema =>
    (assignRoots schema).andThen fun schema =>
      match model.checked schema with
      | .error failure => ⟨.error failure, []⟩
      | .ok schema => reported schema

end SdlAssembly.Model
