import SdlAssembly.Documents.Named
import SdlAssembly.Files.Resolve
import SdlAssembly.Log
import SdlAssembly.Text.Utf8

/-!
# Loading documents

A document is read from a file, or from all files of a directory that have an extension of documents
in any case, joined in the order of their paths. Each file has to be a document of its own.
-/

namespace SdlAssembly.Files

open Grammar Documents Text

/-! ## Failures -/

inductive LoadFailure where
  | undecodable (fault : Utf8.Fault)
  /-- A file is not a document. -/
  | invalidFile (path : String) (error : SyntaxError)
  /-- A directory does not give a document. -/
  | invalidText (error : SyntaxError)
  deriving Repr, BEq

/-- The report of a file that is not a document. -/
def invalidFileReport (path : String) (error : SyntaxError) : String :=
  "Could not load " ++ path ++ ":\n" ++ error.report

/-! ## Texts -/

/-- The text of a file that has to be a document, shown by a path. -/
def readText (shown : String) (bytes : List UInt8) : Except LoadFailure String := do
  let chars ← (Utf8.decode bytes).mapError .undecodable
  let text := String.ofList (Utf8.joinLineEnds chars)
  match parseDocument ⟨unnamedSource, text⟩ with
  | .ok _ => return text
  | .error e => throw (.invalidFile shown e)

/-- The extensions that files of a directory may have. -/
def textExtensions : List String := [".graphql", ".graphqls", ".gql"]

def isTextName (parts : List String) : Bool :=
  match parts.getLast? with
  | some name =>
    let lower := String.ofList (name.toList.map Char.toLower)
    textExtensions.any fun extension => lower.endsWith extension
  | none => false

/-- Puts a named file among others in the order of their names. -/
def insertByName (file : String × List UInt8) :
    List (String × List UInt8) → List (String × List UInt8)
  | [] => [file]
  | other :: rest =>
    if other.1 < file.1 then other :: insertByName file rest else file :: other :: rest

/-- The files of a directory that are read, by their paths and in the order of these. -/
def Tree.textFiles (tree : Tree) (path : Path) (location : Location) :
    List (String × List UInt8) :=
  let files := (tree.below location).filterMap fun
    | (parts, .file bytes) =>
      if isTextName parts then some (path.join parts, bytes) else none
    | (_, .directory) => none
  files.foldr insertByName []

/-- The text at a path. -/
def Tree.textAt (tree : Tree) (path : Path) : Except LoadFailure String :=
  match tree.lookup? path with
  | some (location, .directory) => do
    let texts ← (tree.textFiles path location).mapM fun (shown, bytes) => readText shown bytes
    return "\n".intercalate texts
  | some (_, .file bytes) => readText (tree.absolute path).text bytes
  | none => .ok ""

/-! ## Documents -/

/-- The document at a path. -/
def Tree.documentAt (tree : Tree) (path : Path) : Except LoadFailure NamedDocument := do
  let text ← tree.textAt path
  match parseDocument ⟨path.text, text⟩ with
  | .ok document => return ⟨document, some path.name⟩
  | .error e => throw (.invalidText e)

/-- The documents at paths, up to the first that fails. -/
def Tree.documentsAt (tree : Tree) : List Path → Logged (Except LoadFailure (List NamedDocument))
  | [] => ⟨.ok [], []⟩
  | path :: rest =>
    match tree.documentAt path with
    | .error failure => ⟨.error failure, []⟩
    | .ok d =>
      (Logged.note .debug ("Parsed " ++ toString d.document.definitions.length
          ++ " definition(s) from " ++ path.text) ⟨(), []⟩).andThen fun _ =>
        (tree.documentsAt rest).map fun documents => documents.map (d :: ·)

/-- The documents that paths stand for. -/
def Tree.load (tree : Tree) (paths : List Path) :
    Logged (Except LoadFailure (List NamedDocument)) :=
  tree.documentsAt (tree.resolve paths)

end SdlAssembly.Files
