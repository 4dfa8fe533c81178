import SdlAssembly.Model.Compose

/-!
# Sessions

A session works on one model step by step and remembers the last schema that it annotated. Steps
that collect only ever add to the model; steps that build, print or look something up leave it as it
is. What a step changed before it failed stays changed.
-/

namespace SdlAssembly.Model

open Grammar Documents Annotation Annotated Schemas

structure Session where
  model : TypeSystem := {}
  remembered : Option AnnotatedSchema := none
  deriving Inhabited

/-! ## Steps and answers -/

inductive Step where
  | leafTypes (document : Document)
  | entityPatterns (d : NamedDocument)
  | placeholders (document : Document)
  | definitions (document : Document)
  /-- The leaf types of a document, then its keys. -/
  | annotations (d : NamedDocument)
  | defaults
  | tryLeafType (name : String) (info : LeafType)
  | tryPattern (name : String) (set : SelectionSet)
  | setStrict (value : Bool)
  | build
  | compose
  | annotate
  /-- Changes the metadata of a type of the remembered schema. -/
  | touch (name : String) (info : Option LeafType) (key : Option SelectionSet)
  | lookup (name : String)
  | print
  | request
  deriving Repr

inductive Answer where
  | done
  | added (isNew : Bool)
  | stopped (failure : AssemblyFailure)
  | built (schema : Schema)
  | annotated (annotated : AnnotatedSchema)
  | text (text : String)
  | found (info : Option LeafType) (key : Option SelectionSet)
  | notBuilt (failure : BuildFailure)
  | notPrinted (failure : ComposeFailure)
  /-- No schema is remembered. -/
  | nothing
  | requestRefused
  deriving Repr

/-! ## Running -/

def TypeSystem.tryLeafType (model : TypeSystem) (name : String) (info : LeafType) : TypeSystem :=
  { model with leafTypes := model.leafTypes.tryAdd name info }

def TypeSystem.tryPattern (model : TypeSystem) (name : String) (set : SelectionSet) :
    TypeSystem :=
  { model with entityPatterns := model.entityPatterns.add (.type name) set }

namespace Session

def withModel (s : Session) (model : TypeSystem) : Session := { s with model := model }

/-- The session after progress on its model. -/
def advance (s : Session) (p : Progress) : Logged (Session × Answer) :=
  p.map fun (model, failure) => (s.withModel model, (failure.map Answer.stopped).getD .done)

/-- A changed model. -/
def changed (s : Session) (t : Logged TypeSystem) : Logged (Session × Answer) :=
  t.map fun model => (s.withModel model, .done)

/-- An answer that changes nothing. -/
def answered (s : Session) (t : Logged Answer) : Logged (Session × Answer) :=
  t.map fun answer => (s, answer)

/-- An answer about the remembered schema, if there is one. -/
def withRemembered (s : Session) (f : AnnotatedSchema → Session × Answer) :
    Logged (Session × Answer) :=
  match s.remembered with
  | none => ⟨(s, .nothing), []⟩
  | some annotated => ⟨f annotated, []⟩

def ofPrint : Except ComposeFailure String → Answer
  | .ok text => .text text
  | .error failure => .notPrinted failure

def ofComposition : Except CompositionFailure String → Answer
  | .ok text => .text text
  | .error (.build failure) => .notBuilt failure
  | .error (.print failure) => .notPrinted failure

def ofBuild : Except BuildFailure Schema → Answer
  | .ok schema => .built schema
  | .error failure => .notBuilt failure

/-- Sets what is given in the metadata of a type, which gets an entry in any case. -/
def touched (annotated : AnnotatedSchema) (name : String) (info : Option LeafType)
    (key : Option SelectionSet) : AnnotatedSchema :=
  annotated.modify name fun m =>
    { leafType := info <|> m.leafType, entityKey := key <|> m.entityKey }

/-- Runs one step. -/
def run (s : Session) : Step → Logged (Session × Answer)
  | .leafTypes document => s.changed (s.model.addLeafTypes document)
  | .entityPatterns d => s.advance (s.model.addEntityPatterns d)
  | .placeholders document => s.advance (s.model.addPlaceholders document)
  | .definitions document => s.changed ⟨s.model.addDefinitions document, []⟩
  | .annotations d => s.advance (s.model.annotate d)
  | .defaults => s.changed s.model.addDefaults
  | .tryLeafType name info =>
    ⟨(s.withModel (s.model.tryLeafType name info),
      .added (!s.model.leafTypes.contains name)), []⟩
  | .tryPattern name set =>
    ⟨(s.withModel (s.model.tryPattern name set),
      .added (!s.model.entityPatterns.types.contains name)), []⟩
  | .setStrict value => ⟨(s.withModel { s.model with strict := value }, .done), []⟩
  | .build => s.answered (s.model.build.map ofBuild)
  | .compose => s.answered (s.model.compose.map ofComposition)
  | .annotate => s.model.annotated.map fun
    | .ok annotated => ({ s with remembered := some annotated }, .annotated annotated)
    | .error failure => (s, .notBuilt failure)
  | .touch name info key => s.withRemembered fun annotated =>
      let annotated := touched annotated name info key
      ({ s with remembered := some annotated }, .annotated annotated)
  | .lookup name => s.withRemembered fun annotated =>
      (s, .found (annotated.leafType? name) (annotated.entityKey? name))
  | .print => s.withRemembered fun annotated => (s, ofPrint annotated.print)
  | .request => ⟨(s, .requestRefused), []⟩

/-- Runs steps one after the other. Each answer goes with the model after its step. -/
def runAll (s : Session) : List Step → Logged (List (Answer × TypeSystem))
  | [] => ⟨[], []⟩
  | step :: rest =>
    (s.run step).andThen fun (s, answer) =>
      (s.runAll rest).map fun rows => (answer, s.model) :: rows

end Session

end SdlAssembly.Model
