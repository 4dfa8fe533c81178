import SdlAssembly.Command.Request
import SdlAssembly.Config.Load
import SdlAssembly.Console.Message
import SdlAssembly.Files.Load
import SdlAssembly.Model.Compose
import SdlAssembly.Report.Contents

/-!
# Running a command line

A run reads and changes a file tree, keeps a log and writes to a console. Expected failures are
reported in the log and end the run with code 1; what no one expects ends it too, and is told. What a
run finds around itself decides which words it reads, what it can write and show, and how deep its
configuration may be.
-/

namespace SdlAssembly.Command

open Files Console Model Annotated

/-! ## Surroundings -/

/-- How a text is written in bytes, if all of its characters can be. -/
abbrev Encoding := String → Option (List UInt8)

def utf8 : Encoding := fun text => some text.toUTF8.toList

/-- What a run finds besides its words and its file tree, and leaves as it is. -/
structure Surroundings where
  environment : Environment := []
  device : Device := {}
  /-- The encoding of the files that are written. -/
  encoding : Encoding := utf8
  /-- The greatest number of collections around a value of a configuration. -/
  deepest : Nat := Yaml.usualDeepest

/-! ## State -/

/-- What a run has done so far. -/
structure World where
  tree : Tree
  log : Log := []
  console : String := ""

/-- What ends a run and is not reported by it. -/
inductive Escape where
  | config (failure : Config.LoadFailure)
  | documents (failure : Files.LoadFailure)
  | assembly (failure : AssemblyFailure)
  | build (failure : BuildFailure)
  | print (failure : ComposeFailure)
  | file (fault : FileFault)
  /-- A text has characters that a file cannot hold. -/
  | unencodable
  | display (fault : DisplayFault)
  deriving Repr

/-- Why a run stops early. -/
inductive Stop where
  | refused (refusal : Refusal)
  /-- A failure is reported. -/
  | failed
  | escaped (escape : Escape)
  deriving Repr

def Stop.exitCode : Stop → Nat
  | refused refusal => refusal.exitCode
  | failed | escaped _ => 1

/-- A step of a run. What it did before it stops stays done. -/
abbrev Run := ExceptT Stop (StateM World)

/-! ## Steps -/

/-- Takes over the records of an operation. -/
def logged {α : Type} (t : Logged α) : Run α := do
  modify fun world => { world with log := world.log ++ t.log }
  return t.value

/-- Reports a failure and stops. -/
def fail {α : Type} (message : String) : Run α := do
  logged (Logged.note .error message ⟨(), []⟩)
  throw .failed

/-- Stops by a failure: with its report, if it has one. -/
def stopBy {α : Type} (report : Option String) (escape : Escape) : Run α :=
  match report with
  | some message => fail message
  | none => throw (.escaped escape)

/-- Writes a message to the console. -/
def tell (device : Device) (message : Message) : Run Unit :=
  match device.display message with
  | .ok text => modify fun world => { world with console := world.console ++ text }
  | .error fault => throw (.escaped (.display fault))

/-- Writes messages to the console, up to the first that is not shown. -/
def tellAll (device : Device) : List Message → Run Unit
  | [] => return
  | message :: rest => do
    tell device message
    tellAll device rest

/-- Makes the directories around a path. -/
def makeParents (path : Path) : Run Unit := do
  let (tree, fault) := (← get).tree.makeParents path
  modify fun world => { world with tree := tree }
  if let some fault := fault then throw (.escaped (.file fault))

/-- Puts bytes into a file. -/
def fill (path : Path) (bytes : List UInt8) : Run Unit := do
  match (← get).tree.write path bytes with
  | .ok tree => modify fun world => { world with tree := tree }
  | .error fault => throw (.escaped (.file fault))

/-- Writes a text to a file. The file is emptied before the text is encoded. -/
def writeFile (encoding : Encoding) (path : Path) (text : String) : Run Unit := do
  fill path ((encoding text).getD [])
  if (encoding text).isNone then throw (.escaped .unencodable)

/-! ## Reports of failures -/

/-- The report of options that cannot be had, if it is an expected failure. -/
def configReport (path : Path) : Config.LoadFailure → Option String
  | .missing => some ("[Errno 2] No such file or directory: " ++ Text.Literal.quote path.text)
  | .unreadable .malformed => some "the file is not valid YAML"
  | .notMapping typeName => some (Config.notMappingReport typeName)
  | .rejected problems => some (Config.reportProblems problems)
  | .unreadable _ => none

def documentsReport : Files.LoadFailure → Option String
  | .invalidFile path e => some ("Invalid GraphQL file: " ++ invalidFileReport path e)
  | .undecodable _ | .invalidText _ => none

def assemblyReport : AssemblyFailure → Option String
  | .noDocuments => some noDocumentsMessage
  | .key (.invalid e) => some e.message
  | .key .nestedTooDeep | .reserved _ => none

def buildReport (failure : BuildFailure) : Option String :=
  match failure with
  | .unwritable (.infiniteNumber _) => some ("Invalid schema: " ++ failure.message)
  | .unwritable (.collection _) | .unbuildable (.noEnumValues _) => none
  | _ => some failure.message

/-! ## Parts of commands -/

/-- The options of a request: flags go before what its configuration says. -/
def readOptions (deepest : Nat) (request : Request) : Run Config.Options := do
  let tree := (← get).tree
  let file := request.config.map fun path => (path.text, match tree.lookup? path with
    | some (_, .file bytes) => some bytes
    | _ => none)
  match ← logged (Config.load deepest file) with
  | .error failure =>
    let report := configReport (request.config.getD ⟨[]⟩) failure
    stopBy (report.map ("Invalid assembler config: " ++ ·)) (.config failure)
  | .ok options =>
    return options.override
      ⟨if request.noStrict then some false else none,
        if request.skipEntities then some true else none⟩

/-- The model of the documents of a request. Its paths are resolved before they are loaded. -/
def assembleRequest (request : Request) (options : Config.Options) : Run TypeSystem := do
  let tree := (← get).tree
  match ← logged (tree.load (tree.resolve request.schemas)) with
  | .error failure => stopBy (documentsReport failure) (.documents failure)
  | .ok documents =>
    match ← logged (assemble (some documents) options.strict options.skipEntities) with
    | .error failure => stopBy (assemblyReport failure) (.assembly failure)
    | .ok model => return model

/-! ## Messages -/

/-- What is told of a model. -/
def counts (model : TypeSystem) : List Message :=
  [.keyValue "Leaf types" (toString model.leafTypes.size) usualStyle,
    .keyValue "Entity patterns" (toString model.entityPatterns.size) usualStyle]

/-- What is told of a report, or of where it is written. -/
def reportMessages (output : Option Path) (model : TypeSystem) : List Message :=
  match output with
  | some path => .success ("Wrote assembly report to " ++ path.text) :: counts model
  | none => .report (Report.ofModel model) :: counts model

/-- What is told of a schema that is written. -/
def schemaMessages (path : Path) (strict : Bool) : List Message :=
  .success ("Successfully composed schema to " ++ path.text)
    :: if strict then [] else [.hint "Composed without strict validation"]

/-! ## Commands -/

/-- Reports the model of a request. -/
def runAssemble (around : Surroundings) (request : Request) : Run Unit := do
  let options ← readOptions around.deepest request
  let model ← assembleRequest request options
  if let some path := request.output then
    makeParents path
    writeFile around.encoding path (Report.ofModel model).fileText
  tellAll around.device (reportMessages request.output model)

/-- Writes the schema of a request with its metadata. -/
def runCompose (around : Surroundings) (request : Request) : Run Unit := do
  let options ← readOptions around.deepest request
  let model ← assembleRequest request options
  let annotated ←
    match ← logged model.annotated with
    | .error failure => stopBy (buildReport failure) (.build failure)
    | .ok annotated => pure annotated
  let path := request.output.getD ⟨[]⟩
  makeParents path
  match annotated.print with
  | .error failure => throw (.escaped (.print failure))
  | .ok text =>
    writeFile around.encoding path text
    tellAll around.device (schemaMessages path options.strict)

/-- Starts the log file, empty. Its records tell the time of day and are not part of a run. -/
def startLogFile (path : Option String) : Run Unit := do
  if let some text := path then fill ((← get).tree.absolute (.ofText text)) []

def orRefuse {α : Type} (r : Except Refusal α) : Run α :=
  match r with
  | .ok value => return value
  | .error refusal => throw (.refused refusal)

def runVerb (around : Surroundings) (general : General) : Run Unit := do
  startLogFile general.logFile
  let request ← orRefuse
    (readRequest (← get).tree around.environment general.verb general.words)
  match general.verb with
  | .assemble => runAssemble around request
  | .compose => runCompose around request

/-! ## Command lines -/

/-- What a run leaves behind: the log holds the records at the level that is asked for. -/
structure Outcome where
  exitCode : Nat
  log : Log
  console : String
  tree : Tree
  escape : Option Escape := none

def Outcome.of (level : LogLevel) : Except Stop Unit × World → Outcome
  | (.ok (), world) => ⟨0, world.log.atLeast level, world.console, world.tree, none⟩
  | (.error stop, world) =>
    ⟨stop.exitCode, world.log.atLeast level, world.console, world.tree, match stop with
      | .escaped escape => some escape
      | .refused _ | .failed => none⟩

/-- Runs a command line on a file tree. -/
def run (tree : Tree) (around : Surroundings) (words : List String) : Outcome :=
  match readGeneral tree around.environment words with
  | .error refusal => ⟨refusal.exitCode, [], "", tree, none⟩
  | .ok general =>
    Outcome.of general.logLevel ((runVerb around general).run.run { tree := tree })

end SdlAssembly.Command
