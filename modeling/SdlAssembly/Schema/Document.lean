import SdlAssembly.Schema.Roots
import SdlAssembly.Schema.Rules.Check

/-!
# Schemas of one document

The definitions of a document make a schema of their own. They must keep the rules on definitions,
unless the schema is taken as valid.
-/

namespace SdlAssembly.Schemas

open Grammar

/-- Why a document does not make a schema. -/
inductive DocumentFault where
  | rejected (violations : List String)
  | unbuildable (fault : BuildFault)
  deriving Repr, BEq

def DocumentFault.message : DocumentFault → String
  | rejected violations => "\n\n".intercalate violations
  | unbuildable fault => fault.message

/-- The schema of a document. -/
def ofDocument (document : Document) (unchecked : Bool) : Except DocumentFault Schema := do
  if !unchecked then
    match Rules.violations {} document.definitions with
    | [] => pure ()
    | found => throw (.rejected found)
  (ofDefinitions document.definitions unchecked).mapError .unbuildable

end SdlAssembly.Schemas
