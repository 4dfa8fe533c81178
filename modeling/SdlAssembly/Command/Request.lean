import SdlAssembly.Command.Words
import SdlAssembly.Files.Tree
import SdlAssembly.Log

/-!
# Requests

What a command line asks for: a log, and a command with its files. Paths that have to exist are
looked up while the words are read.
-/

namespace SdlAssembly.Command

open Files

/-- Why a command line asks for nothing more. -/
inductive Refusal where
  /-- A text about the program is all that is wanted. -/
  | information
  | usage (fault : UsageFault)
  deriving Repr, BEq, DecidableEq

def Refusal.exitCode : Refusal → Nat
  | information => 0
  | usage _ => 2

def orUsage {α : Type} (r : Except UsageFault α) : Except Refusal α := r.mapError .usage

/-! ## Options for all commands -/

inductive GeneralOption where
  | logLevel | logFile | version | help
  deriving Repr, BEq, DecidableEq

namespace GeneralOption

def form : GeneralOption → OptionForm GeneralOption
  | logLevel => ⟨logLevel, some 'l', ["--log-level"], true, "LOG_LEVEL"⟩
  | logFile => ⟨logFile, none, ["--log-file"], true, "LOG_FILE"⟩
  | version => ⟨version, none, ["--version"], false, "VERSION"⟩
  | help => ⟨help, none, ["--help"], false, "HELP"⟩

def all : List GeneralOption := [logLevel, logFile, version, help]

end GeneralOption

/-- The start of the names of variables. -/
def variableLead : String := "SCHEMA_ASSEMBLER"

inductive Verb where
  | assemble | compose
  deriving Repr, BEq, DecidableEq

def Verb.name : Verb → String
  | assemble => "assemble"
  | compose => "compose"

def Verb.all : List Verb := [assemble, compose]

/-- What is asked for before the command, the command, and the words after it. -/
structure General where
  logLevel : LogLevel
  logFile : Option String
  verb : Verb
  words : List String
  deriving Repr, BEq, DecidableEq

/-- The level of a word in any case. -/
def levelOf (word : String) : Except UsageFault LogLevel :=
  match LogLevel.ofName? (String.ofList (word.toList.map Char.toUpper)) with
  | some level => .ok level
  | none => .error (.notAChoice word)

/-- Refuses a path to a directory. -/
def checkNoDirectory (tree : Tree) (path : String) : Except UsageFault Unit :=
  match tree.written? path with
  | some .directory => .error (.notAFile path)
  | _ => .ok ()

/-- Refuses a path that leads nowhere. -/
def checkExists (tree : Tree) (path : String) : Except UsageFault Unit :=
  if (tree.written? path).isSome then .ok () else .error (.noSuchPath path)

/-- Reads the words up to the command. -/
def readGeneral (tree : Tree) (environment : Environment) (words : List String) :
    Except Refusal General := do
  if words.isEmpty then throw (.usage .noWords)
  let given ← orUsage (readWords (GeneralOption.all.map GeneralOption.form) false words)
  let settings : Settings GeneralOption := ⟨given.options, environment, variableLead⟩
  if ← orUsage (settings.flag GeneralOption.version.form) then throw .information
  if ← orUsage (settings.flag GeneralOption.help.form) then throw .information
  let level ← orUsage (((settings.value? GeneralOption.logLevel.form).map levelOf).getD (.ok .info))
  let logFile := settings.value? GeneralOption.logFile.form
  if let some path := logFile then orUsage (checkNoDirectory tree path)
  match given.words with
  | [] => throw (.usage .missingCommand)
  | name :: rest =>
    match Verb.all.find? fun verb => verb.name == name with
    | some verb => return ⟨level, logFile, verb, rest⟩
    | none => throw (.usage (.unknownCommand name))

/-! ## Options of a command -/

inductive CommandOption where
  | schemas | config | noStrict | skipEntities | output | help
  deriving Repr, BEq, DecidableEq

namespace CommandOption

def form : CommandOption → OptionForm CommandOption
  | schemas => ⟨schemas, some 's', ["--schema"], true, "SCHEMAS"⟩
  | config => ⟨config, some 'c', ["--config"], true, "CONFIG_PATH"⟩
  | noStrict => ⟨noStrict, none, ["--no-strict"], false, "NO_STRICT"⟩
  | skipEntities =>
    ⟨skipEntities, none, ["--skip-entity-extraction", "--no-store"], false,
      "SKIP_ENTITY_EXTRACTION"⟩
  | output => ⟨output, some 'o', ["--output"], true, "OUTPUT"⟩
  | help => ⟨help, none, ["--help"], false, "HELP"⟩

def all : List CommandOption := [schemas, config, noStrict, skipEntities, output, help]

end CommandOption

structure Request where
  schemas : List Path
  config : Option Path
  noStrict : Bool
  skipEntities : Bool
  output : Option Path
  deriving Repr, BEq

/-- Whether a command must be told where to write. -/
def Verb.needsOutput : Verb → Bool
  | assemble => false
  | compose => true

/-- Reads the words after a command. -/
def readRequest (tree : Tree) (environment : Environment) (verb : Verb) (words : List String) :
    Except Refusal Request := do
  let given ← orUsage (readWords (CommandOption.all.map CommandOption.form) true words)
  let lead := variableLead ++ "_" ++ String.ofList (verb.name.toList.map Char.toUpper)
  let settings : Settings CommandOption := ⟨given.options, environment, lead⟩
  if ← orUsage (settings.flag CommandOption.help.form) then throw .information
  let schemas := settings.values CommandOption.schemas.form
  if schemas.isEmpty then throw (.usage (.missingOption "--schema"))
  orUsage (schemas.forM (checkExists tree))
  let config := settings.value? CommandOption.config.form
  if let some path := config then
    orUsage (checkExists tree path)
    orUsage (checkNoDirectory tree path)
  let noStrict ← orUsage (settings.flag CommandOption.noStrict.form)
  let skipEntities ← orUsage (settings.flag CommandOption.skipEntities.form)
  let output := settings.value? CommandOption.output.form
  if verb.needsOutput && output.isNone then throw (.usage (.missingOption "--output"))
  if let some path := output then orUsage (checkNoDirectory tree path)
  if let word :: _ := given.words then throw (.usage (.unexpectedWord word))
  return ⟨schemas.map .ofText, config.map .ofText, noStrict, skipEntities, output.map .ofText⟩

end SdlAssembly.Command
