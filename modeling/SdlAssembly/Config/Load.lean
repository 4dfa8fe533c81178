import SdlAssembly.Config.Acceptance
import SdlAssembly.Log
import SdlAssembly.Yaml.Reading

/-!
# Loading options

Options are read from a file that holds one mapping. A file that holds nothing, null or an empty
mapping gives the defaults.
-/

namespace SdlAssembly.Config

open Yaml

/-! ## Failures -/

inductive LoadFailure where
  /-- There is no file. -/
  | missing
  | unreadable (fault : Yaml.Fault)
  | notMapping (typeName : String)
  | rejected (problems : List Problem)
  deriving Repr, BEq

/-- The report of a file that holds something else than a mapping. -/
def notMappingReport (typeName : String) : String :=
  "Assembler config root must be a mapping (YAML object), got " ++ typeName

/-! ## Loading -/

/-- The options that the value of a file stands for. -/
def ofRoot : Datum → Except LoadFailure Options
  | .null | .map [] => .ok {}
  | .map entries => (acceptEntries entries).mapError .rejected
  | root => .error (.notMapping root.typeName)

/-- The value that the bytes of a file hold, in which values are inside so many collections at
most. -/
def readRoot (deepest : Nat) (bytes : List UInt8) : Except LoadFailure Datum :=
  (Yaml.read deepest bytes).mapError .unreadable

/-- The options of a file that is given by its name and what it holds, if it is there; without one
they are the defaults. -/
def load (deepest : Nat) (file : Option (String × Option (List UInt8))) :
    Logged (Except LoadFailure Options) :=
  match file with
  | none => Logged.note .debug "No assembler config provided, using defaults" ⟨.ok {}, []⟩
  | some (_, none) => ⟨.error .missing, []⟩
  | some (path, some bytes) =>
    match readRoot deepest bytes with
    | .error failure => ⟨.error failure, []⟩
    | .ok root => Logged.note .debug ("Loaded assembler config from " ++ path) ⟨ofRoot root, []⟩

end SdlAssembly.Config
