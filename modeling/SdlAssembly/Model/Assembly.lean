import SdlAssembly.Annotation.EntityKey
import SdlAssembly.Annotation.LeafType
import SdlAssembly.Model.Placeholder

/-!
# Assembling documents

Documents are taken in order, which decides precedence. An annotation document adds to the leaf
types and the entity patterns; any other document adds its definitions and its placeholders. The
default leaf types come last. A step that fails keeps what it added before.
-/

namespace SdlAssembly.Model

open Grammar Documents Annotation

/-- The merged type system of one assembly. It describes types only and answers no requests. -/
structure TypeSystem where
  definitions : List Definition := []
  placeholders : Placeholders := {}
  leafTypes : LeafTypes := {}
  entityPatterns : EntityPatterns := {}
  strict : Bool := true
  deriving Inhabited

/-! ## Failures -/

inductive AssemblyFailure where
  | noDocuments
  | key (failure : KeyFailure)
  | reserved (name : ReservedName)
  deriving Repr, BEq, DecidableEq

def noDocumentsMessage : String := "No GraphQL documents were given to assemble"

/-- The answer to every request. -/
def requestRefusal : String :=
  "The assembled schema is for type introspection only; request execution is not supported."

/-- What a step left behind, and why it stopped, if it did. -/
abbrev Progress := Logged (TypeSystem × Option AssemblyFailure)

namespace TypeSystem

/-! ## Single contributions -/

def addLeafTypes (model : TypeSystem) (document : Document) : Logged TypeSystem :=
  (collectLeafTypes model.leafTypes document).map fun leafTypes =>
    { model with leafTypes := leafTypes }

def addEntityPatterns (model : TypeSystem) (d : NamedDocument) : Progress :=
  (collectEntityPatterns model.entityPatterns d).map fun (patterns, failure) =>
    ({ model with entityPatterns := patterns }, failure.map .key)

def addPlaceholders (model : TypeSystem) (document : Document) : Progress :=
  (collectPlaceholders model.placeholders document).map fun (placeholders, failure) =>
    ({ model with placeholders := placeholders }, failure.map .reserved)

def addDefinitions (model : TypeSystem) (document : Document) : TypeSystem :=
  { model with definitions := model.definitions ++ document.definitions }

def addDefaults (model : TypeSystem) : Logged TypeSystem :=
  (addDefaultLeafTypes model.leafTypes).map fun leafTypes => { model with leafTypes := leafTypes }

/-! ## Documents -/

/-- Reads the annotations of a document: its leaf types, then its keys. -/
def annotate (model : TypeSystem) (d : NamedDocument) (skipEntities : Bool := false) : Progress :=
  (model.addLeafTypes d.document).andThen fun model =>
    if skipEntities then ⟨(model, none), []⟩ else model.addEntityPatterns d

/-- Takes over the definitions of a document, if its scalars could be registered. -/
def define (model : TypeSystem) (document : Document) : Progress :=
  (model.addPlaceholders document).map fun
    | (model, none) => (model.addDefinitions document, none)
    | failed => failed

/-- Adds one document by its kind. -/
def add (skipEntities : Bool) (model : TypeSystem) (d : NamedDocument) : Progress :=
  let kind := DocumentKind.ofDocument d.document
  (Logged.note .debug
    ("Classified " ++ (usable d.displayName).getD "document" ++ " as " ++ kind.label ++ " document")
    ⟨(), []⟩).andThen fun _ =>
      match kind with
      | .annotations => model.annotate d skipEntities
      | .definitions => model.define d.document

/-- Adds documents up to the first that fails. -/
def addAll (skipEntities : Bool) : TypeSystem → List NamedDocument → Progress
  | model, [] => ⟨(model, none), []⟩
  | model, d :: rest =>
    (model.add skipEntities d).andThen fun
      | (model, none) => addAll skipEntities model rest
      | failed => ⟨failed, []⟩

end TypeSystem

/-! ## Assembly -/

/-- The counts that are reported after an assembly. -/
def summary (documents : List NamedDocument) (model : TypeSystem) : String :=
  let annotations := documents.filter fun d => DocumentKind.ofDocument d.document == .annotations
  "Assembled " ++ toString documents.length ++ " document(s) (" ++ toString annotations.length
    ++ " annotation): " ++ toString model.definitions.length ++ " definition(s), "
    ++ toString model.placeholders.size ++ " placeholder scalar(s), "
    ++ toString model.leafTypes.size ++ " leaf type(s), "
    ++ toString model.entityPatterns.globals.length ++ " global and "
    ++ toString model.entityPatterns.types.size ++ " type entity pattern(s)"

/-- Assembles documents, if a collection of them is given at all. -/
def assemble (documents : Option (List NamedDocument)) (strict : Bool := true)
    (skipEntities : Bool := false) : Logged (Except AssemblyFailure TypeSystem) :=
  match documents with
  | none => ⟨.error .noDocuments, []⟩
  | some documents =>
    (TypeSystem.addAll skipEntities { strict := strict } documents).andThen fun
      | (_, some failure) => ⟨.error failure, []⟩
      | (model, none) =>
        model.addDefaults.andThen fun model =>
          Logged.note .info (summary documents model) ⟨.ok model, []⟩

end SdlAssembly.Model
