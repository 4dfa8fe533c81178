import SdlAssembly.Text.Split

/-!
# Paths

A path is a list of parts, the first of which may be the root of all files. Its parts are ordered as
texts, and paths by their first parts that differ; a path goes before those that it is the start of.
-/

namespace SdlAssembly.Files

structure Path where
  parts : List String
  deriving Repr, BEq, DecidableEq, Inhabited

namespace Path

/-! ## Text -/

/-- Whether a part of a path is the root of all files, which two slashes name as well. -/
def isRoot (part : String) : Bool := part == "/" || part == "//"

/-- The root that a text starts with, if it starts with one. -/
def rootOf? (text : String) : Option String :=
  match (text.toList.takeWhile (· == '/')).length with
  | 0 => none
  | 2 => some "//"
  | _ => some "/"

/-- The root of a text and its pieces between slashes. -/
def pieces (text : String) : List String := (rootOf? text).toList ++ Text.split '/' text

/-- The path of a text; empty pieces and single points say nothing. -/
def ofText (text : String) : Path :=
  ⟨(pieces text).filter fun piece => piece != "" && piece != "."⟩

def text (path : Path) : String :=
  match path.parts with
  | [] => "."
  | first :: rest =>
    if isRoot first then first ++ "/".intercalate rest else "/".intercalate (first :: rest)

/-- The last part; a root has no name. -/
def name (path : Path) : String := (path.parts.getLast?.filter fun part => !isRoot part).getD ""

/-- The path without its last part; nothing is around a root. -/
def parent (path : Path) : Path :=
  match path.parts with
  | [part] => if isRoot part then path else ⟨[]⟩
  | parts => ⟨parts.dropLast⟩

/-- A path with further parts. -/
def append (path : Path) (parts : List String) : Path := ⟨path.parts ++ parts⟩

/-- The text of a path with further parts put behind it. -/
def join (path : Path) (parts : List String) : String :=
  let lead := if path.text.endsWith "/" then path.text else path.text ++ "/"
  lead ++ "/".intercalate parts

/-- The parts after each step back has taken away the part before it. -/
def normalParts (parts : List String) : List String :=
  parts.foldl (fun kept part => if part == ".." then kept.dropLast else kept ++ [part]) []

/-! ## Order -/

/-- Whether a list of parts goes before another. -/
def partsBefore : List String → List String → Bool
  | _, [] => false
  | [], _ :: _ => true
  | a :: as, b :: bs => a < b || (a == b && partsBefore as bs)

def before (a b : Path) : Bool := partsBefore a.parts b.parts

/-- Puts a path into an ordered list, unless it is there. -/
def insertOrdered (path : Path) : List Path → List Path
  | [] => [path]
  | other :: rest =>
    if path == other then other :: rest
    else if path.before other then path :: other :: rest
    else other :: insertOrdered path rest

/-- Paths in order, each once. -/
def ordered (paths : List Path) : List Path := paths.foldr insertOrdered []

end Path

end SdlAssembly.Files
