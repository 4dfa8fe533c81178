import SdlAssembly.Files.Path

/-!
# File trees

The files and directories below a root, and the working directory, at which the ways of paths start
that do not start at the root. Whoever follows a path has to pass through directories, and a step
back leads to the directory around the one it is taken in, from the root to itself.
-/

namespace SdlAssembly.Files

/-- The names that lead from the root down to a file or directory. -/
abbrev Location := List String

inductive Entry where
  | file (bytes : List UInt8)
  | directory
  deriving Repr, BEq, DecidableEq, Inhabited

structure Tree where
  entries : List (Location × Entry) := []
  /-- The working directory. -/
  home : Location := []
  deriving Repr, BEq, Inhabited

/-- Why a file cannot be had or made. -/
inductive FileFault where
  | notFound
  | alreadyThere
  | notDirectory
  | isDirectory
  | nameTooLong
  deriving Repr, BEq, DecidableEq

/-- The number of a fault in reports. -/
def FileFault.number : FileFault → Nat
  | notFound => 2
  | alreadyThere => 17
  | notDirectory => 20
  | isDirectory => 21
  | nameTooLong => 36

/-- The greatest size of a name, in bytes. -/
def longestName : Nat := 255

/-- Whether nothing can be at a location since its name is too long. -/
def isTooLong (location : Location) : Bool :=
  match location.getLast? with
  | some name => longestName < name.utf8ByteSize
  | none => false

namespace Tree

/-! ## Looking -/

/-- What is at a location; the root is always there. -/
def entry? (tree : Tree) (location : Location) : Option Entry :=
  if location.isEmpty then some .directory else tree.entries.lookup location

/-- Why something that is not there cannot be had. -/
def absence (location : Location) : FileFault :=
  if isTooLong location then .nameTooLong else .notFound

/-- Follows pieces of a path from a location. The last piece need not be there. -/
def follow (tree : Tree) (here : Location) : List String → Except FileFault Location
  | [] => .ok here
  | piece :: rest =>
    if Path.isRoot piece then tree.follow [] rest
    else
      match tree.entry? here with
      | none => .error (absence here)
      | some (.file _) => .error .notDirectory
      | some .directory =>
        if piece == "" || piece == "." then tree.follow here rest
        else if piece == ".." then tree.follow here.dropLast rest
        else tree.follow (here ++ [piece]) rest

/-- Where pieces of a path lead from the working directory. -/
def reach (tree : Tree) (pieces : List String) : Except FileFault Location :=
  tree.follow tree.home pieces

/-- What pieces of a path lead to. -/
def find? (tree : Tree) (pieces : List String) : Option (Location × Entry) :=
  match tree.reach pieces with
  | .error _ => none
  | .ok location => (tree.entry? location).map fun entry => (location, entry)

/-- What a path leads to. -/
def lookup? (tree : Tree) (path : Path) : Option (Location × Entry) := tree.find? path.parts

/-- What a written path leads to; here a needless slash or point asks for a directory, and an empty
path leads nowhere. -/
def written? (tree : Tree) (text : String) : Option Entry :=
  if text.isEmpty then none else (tree.find? (Path.pieces text)).map Prod.snd

/-- A path from the root, without steps back. What is there is not looked at. -/
def absolute (tree : Tree) (path : Path) : Path :=
  match path.parts with
  | first :: rest =>
    if Path.isRoot first then ⟨first :: Path.normalParts rest⟩
    else ⟨"/" :: Path.normalParts (tree.home ++ path.parts)⟩
  | [] => ⟨"/" :: Path.normalParts tree.home⟩

/-- Whether a path leads to a directory. -/
def isDirectory (tree : Tree) (path : Path) : Bool :=
  match tree.lookup? path with
  | some (_, .directory) => true
  | _ => false

/-- What is inside a location at any depth, by the names that lead there from it. -/
def below (tree : Tree) (location : Location) : List (List String × Entry) :=
  tree.entries.filterMap fun (place, entry) =>
    if location.isPrefixOf place && location.length < place.length then
      some (place.drop location.length, entry)
    else none

/-! ## Changing -/

/-- Sets what is at a location. -/
def set (tree : Tree) (location : Location) (entry : Entry) : Tree :=
  if (tree.entries.lookup location).isSome then
    { tree with
      entries := tree.entries.map fun (place, old) =>
        (place, if place == location then entry else old) }
  else { tree with entries := tree.entries ++ [(location, entry)] }

/-- Sets what is at a location and makes the directories around it. -/
def insert (tree : Tree) (location : Location) (entry : Entry) : Tree :=
  let around := (List.range location.length).map fun count => location.take count
  let parents := around.filter fun place => (tree.entry? place).isNone
  (parents.foldl (fun tree place => tree.set place .directory) tree).set location entry

/-- Makes one directory. -/
def makeDirectory (tree : Tree) (parts : List String) : Except FileFault Tree := do
  let location ← tree.reach parts
  if (tree.entry? location).isSome then throw .alreadyThere
  if isTooLong location then throw .nameTooLong
  return tree.set location .directory

/-- Makes a directory unless it is there, given the last part of its path first. Missing directories
around it are made before it; what was made before a fault stays. -/
def makeDirectories (tree : Tree) : List String → Tree × Option FileFault
  | [] => (tree, if tree.isDirectory ⟨[]⟩ then none else some .notFound)
  | last :: before =>
    let parts := (last :: before).reverse
    let settle (tree : Tree) (fault : FileFault) : Tree × Option FileFault :=
      (tree, if tree.isDirectory ⟨parts⟩ then none else some fault)
    match tree.makeDirectory parts with
    | .ok made => (made, none)
    | .error .notFound =>
      match tree.makeDirectories before with
      | (tree, some fault) => (tree, some fault)
      | (tree, none) =>
        match tree.makeDirectory parts with
        | .ok made => (made, none)
        | .error fault => settle tree fault
    | .error fault => settle tree fault

/-- Makes the directories around a path. -/
def makeParents (tree : Tree) (path : Path) : Tree × Option FileFault :=
  tree.makeDirectories path.parent.parts.reverse

/-- Writes a file, in place of the one that may be there. -/
def write (tree : Tree) (path : Path) (bytes : List UInt8) : Except FileFault Tree := do
  let location ← tree.reach path.parts
  match tree.entry? location with
  | some .directory => throw .isDirectory
  | _ =>
    if isTooLong location then throw .nameTooLong
    return tree.set location (.file bytes)

end Tree

end SdlAssembly.Files
