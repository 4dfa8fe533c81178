import SdlAssembly.Files.Tree

/-!
# Resolving paths

A path to a file stands for itself, and a path to a directory for all that is inside it under a name
with the extension of documents. The result is in order and has each path once.
-/

namespace SdlAssembly.Files

/-- The extension of documents. -/
def documentExtension : String := ".graphql"

/-- Whether a directory gives what is inside it under some names. -/
def isDocumentName (parts : List String) : Bool :=
  (parts.getLast?.map fun name => name.endsWith documentExtension).getD false

/-- The paths that a path stands for. -/
def Tree.resolvePath (tree : Tree) (path : Path) : List Path :=
  match tree.lookup? path with
  | none => []
  | some (_, .file _) => [path]
  | some (location, .directory) =>
    ((tree.below location).filter fun (parts, _) => isDocumentName parts).map fun (parts, _) =>
      path.append parts

/-- The paths that paths stand for. -/
def Tree.resolve (tree : Tree) (paths : List Path) : List Path :=
  Path.ordered (paths.flatMap tree.resolvePath)

end SdlAssembly.Files
