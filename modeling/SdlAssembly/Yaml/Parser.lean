import SdlAssembly.Yaml.Node

/-!
# Reading nodes

The grammar of tokens. Each collection reads its parts up to the token that ends it, and a part that
is left out is an empty plain scalar. An anchor names the node after it for the aliases that follow;
no two nodes of a document have the same anchor. Tokens are read as they are needed, and nodes are
inside collections up to some number of them.
-/

namespace SdlAssembly.Yaml

/-! ## State -/

/-- The reading of the tokens, the anchors so far, the tag handles of the document, the number of the
collections around the present place, and how many there may be. -/
structure Parsing where
  reading : Reading
  anchors : List (String × Node) := []
  handles : List (String × String) := []
  depth : Nat := 0
  deepest : Nat

abbrev Parse := StateT Parsing (Except Fault)

def malformed {α : Type} : Parse α := throw .malformed

/-- A step of the reading of tokens. -/
def lex {α : Type} (step : Lex α) : Parse α := do
  let (a, reading) ← step.run (← get).reading
  modify fun s => { s with reading := reading }
  return a

/-- The next token; there is none at the end of the text. -/
def peekToken : Parse (Option Token) := lex Lex.peek?

def drop : Parse Unit := lex Lex.drop

/-- Whether the next token is one of the given ones. -/
def isNext (wanted : List Token) : Parse Bool := do
  match ← peekToken with
  | some token => return wanted.contains token
  | none => return false

/-- Takes the next token if it is the given one. -/
def take (token : Token) : Parse Bool := do
  if ← isNext [token] then
    drop
    return true
  else return false

/-! ## Properties -/

def anchor? : Parse (Option String) := do
  match ← peekToken with
  | some (.anchor name) =>
    drop
    return some name
  | _ => return none

def tag? : Parse (Option (Option String × String)) := do
  match ← peekToken with
  | some (.tag handle suffix) =>
    drop
    return some (handle, suffix)
  | _ => return none

/-- The name of a tag, whose handle has to be known. -/
def tagName : Option String × String → Parse String
  | (none, suffix) => return suffix
  | (some handle, suffix) => do
    match (← get).handles.lookup handle with
    | some lead => return lead ++ suffix
    | none => malformed

/-- An anchor and the name of a tag, in either order. -/
def properties : Parse (Option String × Option String) := do
  let before ← anchor?
  let tag ← tag?
  let anchor ← if before.isNone && tag.isSome then anchor? else pure before
  return (anchor, ← tag.mapM tagName)

/-- Refuses an anchor that is taken. -/
def checkAnchor (name : Option String) : Parse Unit := do
  match name with
  | none => return
  | some name => if ((← get).anchors.lookup name).isSome then malformed

/-- Gives a node its anchor. -/
def remember (name : Option String) (node : Node) : Parse Unit :=
  match name with
  | none => return
  | some name => modify fun s => { s with anchors := (name, node) :: s.anchors }

/-- The tag of a collection; a single exclamation mark asks for the usual one. -/
def collectionTag (tag : Option String) (usual : Tag) : Tag :=
  match tag with
  | none | some "!" => usual
  | some name => .ofName name

/-- The tag of a scalar. A plain one without a tag, and any one tagged by a single exclamation mark,
has the tag of its form. -/
def scalarTag (tag : Option String) (plain : Bool) (text : ScalarText) : Tag :=
  match tag with
  | none => if plain then .ofPlain text else .string
  | some "!" => .ofPlain text
  | some name => .ofName name

/-! ## Nesting -/

/-- Reads what is inside a collection. -/
def inside {α : Type} (read : Parse α) : Parse α := do
  modify fun s => { s with depth := s.depth + 1 }
  let a ← read
  modify fun s => { s with depth := s.depth - 1 }
  return a

/-- Refuses a node inside too many collections. -/
def checkDepth : Parse Unit := do
  let s ← get
  if s.deepest < s.depth then throw .nestedTooDeep

/-- The scalar that stands for a part that is left out. -/
def emptyNode : Parse Node := do
  checkDepth
  return .scalar .null (.whole "")

/-! ## Nodes -/

/-- Where a node stands: whether block collections may start there, and whether a sequence may start
there without being indented. -/
structure Place where
  block : Bool
  indentless : Bool := false

/-- Goes on to the next part of a flow collection: a comma stands between two parts. -/
def nextPart (first : Bool) : Parse Unit := do
  if !first then
    if !(← take .flowEntry) then malformed

mutual

/-- A node. -/
def node (place : Place) : (fuel : Nat) → Parse Node
  | 0 => malformed
  | fuel + 1 => do
    checkDepth
    match ← peekToken with
    | some (.reference name) =>
      drop
      match (← get).anchors.lookup name with
      | some found => return found
      | none => malformed
    | _ =>
      let (name, tag) ← properties
      let sequence (read : Parse (List Node)) : Parse Node := do
        checkAnchor name
        remember name (.enclosing false)
        let result := Node.sequence (collectionTag tag .sequence) (← inside read)
        remember name result
        return result
      let mapping (read : Parse (List (Node × Node))) : Parse Node := do
        checkAnchor name
        remember name (.enclosing true)
        let result := Node.mapping (collectionTag tag .mapping) (← inside read)
        remember name result
        return result
      let scalar (tag : Tag) (text : ScalarText) : Parse Node := do
        checkAnchor name
        remember name (.scalar tag text)
        return .scalar tag text
      let absent : Parse Node :=
        if name.isSome || tag.isSome then scalar (scalarTag tag true (.whole "")) (.whole "")
        else malformed
      match ← peekToken with
      | some .blockEntry =>
        if place.indentless then sequence (entries true fuel) else absent
      | some (.scalar text plain) =>
        drop
        scalar (scalarTag tag plain text) text
      | some .flowSequenceStart =>
        drop
        sequence (flowItems true fuel)
      | some .flowMappingStart =>
        drop
        mapping (flowEntries true fuel)
      | some .blockSequenceStart =>
        if place.block then do
          drop
          sequence (entries false fuel)
        else absent
      | some .blockMappingStart =>
        if place.block then do
          drop
          mapping (blockEntries fuel)
        else absent
      | _ => absent

/-- A node, or the empty one before one of the given tokens. -/
def nodeUnless (place : Place) (stops : List Token) : (fuel : Nat) → Parse Node
  | 0 => malformed
  | fuel + 1 => do if ← isNext stops then emptyNode else node place fuel

/-- The items of a block sequence. One that is not indented ends before the first token that is no
item. -/
def entries (indentless : Bool) : (fuel : Nat) → Parse (List Node)
  | 0 => malformed
  | fuel + 1 => do
    if ← take .blockEntry then
      let stops := if indentless then [.blockEntry, .key, .value, .blockEnd]
        else [.blockEntry, .blockEnd]
      let item ← nodeUnless ⟨true, false⟩ stops fuel
      return item :: (← entries indentless fuel)
    else if indentless then return []
    else if ← take .blockEnd then return []
    else malformed

/-- The value after a key, which may be missing. -/
def blockValue : (fuel : Nat) → Parse Node
  | 0 => malformed
  | fuel + 1 => do
    if ← take .value then nodeUnless ⟨true, true⟩ [.key, .value, .blockEnd] fuel
    else emptyNode

/-- The entries of a block mapping. -/
def blockEntries : (fuel : Nat) → Parse (List (Node × Node))
  | 0 => malformed
  | fuel + 1 => do
    if ← take .key then
      let key ← nodeUnless ⟨true, true⟩ [.key, .value, .blockEnd] fuel
      let value ← blockValue fuel
      return (key, value) :: (← blockEntries fuel)
    else if ← take .blockEnd then return []
    else malformed

/-- The value of an entry of a flow collection, which may be missing. -/
def flowValue (stop : Token) : (fuel : Nat) → Parse Node
  | 0 => malformed
  | fuel + 1 => do
    if ← take .value then nodeUnless ⟨false, false⟩ [.flowEntry, stop] fuel
    else emptyNode

/-- The items of a flow sequence; an entry of a mapping is an item too. -/
def flowItems (first : Bool) : (fuel : Nat) → Parse (List Node)
  | 0 => malformed
  | fuel + 1 => do
    if ← take .flowSequenceEnd then return []
    nextPart first
    if ← take .key then
      checkDepth
      let entry ← inside do
        let key ← nodeUnless ⟨false, false⟩ [.value, .flowEntry, .flowSequenceEnd] fuel
        return (key, ← flowValue .flowSequenceEnd fuel)
      return .mapping .mapping [entry] :: (← flowItems false fuel)
    else if ← take .flowSequenceEnd then return []
    else
      let item ← node ⟨false, false⟩ fuel
      return item :: (← flowItems false fuel)

/-- The entries of a flow mapping; a node alone is a key. -/
def flowEntries (first : Bool) : (fuel : Nat) → Parse (List (Node × Node))
  | 0 => malformed
  | fuel + 1 => do
    if ← take .flowMappingEnd then return []
    nextPart first
    if ← take .key then
      let key ← nodeUnless ⟨false, false⟩ [.value, .flowEntry, .flowMappingEnd] fuel
      let value ← flowValue .flowMappingEnd fuel
      return (key, value) :: (← flowEntries false fuel)
    else if ← take .flowMappingEnd then return []
    else
      let key ← node ⟨false, false⟩ fuel
      return (key, ← emptyNode) :: (← flowEntries false fuel)

end

/-! ## Documents -/

def usualHandles : List (String × String) := [("!", "!"), ("!!", tagSpace)]

/-- Reads the directives before a document: one version at most, whose first number is one, and the
handles of tags, each once. -/
def directives : (fuel : Nat) → (versioned : Bool) → List (String × String) →
    Parse (List (String × String))
  | 0, _, _ => malformed
  | fuel + 1, versioned, handles => do
    match ← peekToken with
    | some (.directive (.version major _)) =>
      drop
      if versioned || major != 1 then malformed else directives fuel true handles
    | some (.directive (.tag handle lead)) =>
      drop
      if (handles.lookup handle).isSome then malformed
      else directives fuel versioned ((handle, lead) :: handles)
    | some (.directive .other) =>
      drop
      directives fuel versioned handles
    | _ => return handles

/-- Goes on over the marks that end documents. -/
def documentEnds : (fuel : Nat) → Parse Unit
  | 0 => return
  | fuel + 1 => do if ← take .documentEnd then documentEnds fuel

/-- Whether a document starts here without being marked. -/
def startsBare : Parse Bool := do
  match ← peekToken with
  | none | some (.directive _) | some .documentStart => return false
  | _ => return true

/-- The root of a document after its mark; there need not be one. -/
def content (fuel : Nat) : Parse Node := do
  match ← peekToken with
  | none | some (.directive _) | some .documentStart | some .documentEnd => emptyNode
  | _ => node ⟨true, false⟩ fuel

/-- The root of the only document, if there is one. -/
def onlyDocument (fuel : Nat) : Parse (Option Node) := do
  let root ←
    if ← startsBare then do
      modify fun s => { s with handles := usualHandles }
      pure (some (← node ⟨true, false⟩ fuel))
    else if (← peekToken).isNone then pure none
    else do
      let given ← directives fuel false []
      if !(← take .documentStart) then malformed
      else
        modify fun s => { s with handles := given ++ usualHandles }
        pure (some (← content fuel))
  documentEnds fuel
  if (← peekToken).isSome then
    -- another document is refused after its directives and its mark
    let _ ← directives fuel false []
    let _ ← take .documentStart
    malformed
  return root

/-- The root of the only document of bytes, if there is one. A character gives four tokens at most,
and every step takes a token or goes one level down, so the fuel is enough. -/
def parse (deepest : Nat) (bytes : List UInt8) : Except Fault (Option Node) :=
  let (text, fault) := readable bytes
  let fuel := 32 * text.length + 96
  (onlyDocument fuel).run'
    { reading := { cursor := { rest := text, beyond := fault } }, deepest := deepest }

end SdlAssembly.Yaml
