import SdlAssembly.Yaml.Lexer
import SdlAssembly.Yaml.Tag

/-!
# Nodes

The tree of a document: scalars, sequences and mappings with their tags. An alias is the node that
it stands for. A mapping may take over the entries of others.
-/

namespace SdlAssembly.Yaml

inductive Node where
  | scalar (tag : Tag) (text : ScalarText)
  | sequence (tag : Tag) (items : List Node)
  | mapping (tag : Tag) (entries : List (Node × Node))
  /-- An alias inside the collection that it stands for. -/
  | enclosing (isMapping : Bool)
  deriving Repr, BEq, Inhabited

namespace Node

def isMerge : Node → Bool
  | scalar tag _ | sequence tag _ | mapping tag _ => tag == .merge
  | enclosing _ => false

mutual

/-- Whether all that a mapping takes over entries from, a mapping or a list of them, has such. -/
def mergesFit : List (Node × Node) → Bool
  | [] => true
  | (key, source) :: rest => (!key.isMerge || fitsMerge source) && mergesFit rest

def fitsMerge : Node → Bool
  | .mapping _ entries => mergesFit entries
  | .sequence _ items => allMappings items
  | .enclosing isMapping => isMapping
  | .scalar _ _ => false

def allMappings : List Node → Bool
  | [] => true
  | .mapping _ entries :: rest => mergesFit entries && allMappings rest
  | .enclosing true :: rest => allMappings rest
  | _ :: _ => false

end

end Node

end SdlAssembly.Yaml
