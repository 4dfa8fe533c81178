import SdlAssembly.Command.Run

/-!
# The command line program

Takes a snapshot of the working directory and of what absolute paths of the command line lead to, runs
the command line on it and puts what the run changed back. Only files that the run may read are read.
-/

open SdlAssembly SdlAssembly.Files SdlAssembly.Command

/-- The text that is shown where information is asked for. -/
def usageText : String :=
  "Usage: [-l LEVEL] [--log-file FILE] assemble|compose -s PATH... [-c FILE] [--no-strict] "
    ++ "[--skip-entity-extraction] [-o FILE]"

/-- Whether a run may read a file: it has an extension of documents, or the command line names
it. -/
def isWanted (words : List String) (location : Location) : Bool :=
  isTextName location || words.any fun word => word.contains (location.getLast?.getD "")

/-- The files and directories below a directory. -/
partial def snapshot (wanted : Location → Bool) (location : Location) (tree : Tree) : IO Tree := do
  let mut tree := tree
  for name in ← namesIn location do
    tree ← snapshotAt (location ++ [name]) tree
  return tree
where
  pathOf (location : Location) : String := "/" ++ "/".intercalate location
  namesIn (location : Location) : IO (List String) := do
    let here ← IO.FS.realPath (pathOf location)
    return (← here.readDir).toList.map fun entry => entry.fileName
  snapshotAt (place : Location) (tree : Tree) : IO Tree := do
    let here ← IO.FS.realPath (pathOf place)
    if ← here.isDir then snapshot wanted place (tree.insert place .directory)
    else
      let bytes ← if wanted place then IO.FS.readBinFile here else pure .empty
      return tree.insert place (.file bytes.toList)

/-- What is at a location and below it, or what is around it if nothing is there. -/
partial def snapshotNear (wanted : Location → Bool) (location : Location) (tree : Tree) :
    IO Tree := do
  let here ← IO.FS.realPath ("/" ++ "/".intercalate location)
  if ← here.isDir then
    if location.isEmpty then return tree
    snapshot wanted location (tree.insert location .directory)
  else if ← here.pathExists then
    return tree.insert location (.file (← IO.FS.readBinFile here).toList)
  else snapshotNear wanted location.dropLast tree

/-- Makes what a run has made. -/
def restore (before after : Tree) : IO Unit := do
  for (location, entry) in after.entries do
    if before.entries.lookup location != some entry then
      let path := "/" ++ "/".intercalate location
      match entry with
      | .directory => IO.FS.createDirAll path
      | .file bytes => IO.FS.writeBinFile path ⟨bytes.toArray⟩

/-- The variables of the program that are set. -/
def environment : IO Environment := do
  let verbs := Verb.all.map fun verb =>
    variableLead ++ "_" ++ String.ofList (verb.name.toList.map Char.toUpper)
  let general := GeneralOption.all.map fun o => variableLead ++ "_" ++ o.form.variableName
  let own := verbs.flatMap fun lead =>
    CommandOption.all.map fun o => lead ++ "_" ++ o.form.variableName
  let found ← (general ++ own).filterMapM fun name => do
    return (← IO.getEnv name).map fun value => (name, value)
  return found

def tellEscape (escape : Escape) : IO Unit := IO.eprintln (repr escape)

def main (words : List String) : IO UInt32 := do
  let found ← environment
  let named := words ++ found.map Prod.snd
  let home := (Path.ofText (← IO.currentDir).toString).parts.filter fun part => !Path.isRoot part
  let mut before ← snapshot (isWanted named) home (Tree.insert { home := home } home .directory)
  for word in named do
    if word.startsWith "/" then
      let parts := (before.absolute (.ofText word)).parts.drop 1
      before ← snapshotNear (isWanted named) parts before
  let outcome := run before { environment := found } words
  restore before outcome.tree
  for record in outcome.log do
    IO.eprintln (record.level.name ++ " " ++ record.message)
  IO.print outcome.console
  if let some escape := outcome.escape then tellEscape escape
  if outcome.exitCode = 0 && outcome.console.isEmpty || outcome.exitCode = 2 then
    IO.eprintln usageText
  return outcome.exitCode.toUInt32
