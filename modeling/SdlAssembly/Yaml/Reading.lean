import SdlAssembly.Yaml.Parser
import SdlAssembly.Yaml.Datum
import SdlAssembly.Yaml.Numeral
import SdlAssembly.Yaml.Binary

/-!
# Reading data

The value of a document: each node gives the value that its tag asks for. A mapping has the entries
that it takes over from others before its own. If several nodes are at fault, the one inside the
fewest collections is told, and of those the first.
-/

namespace SdlAssembly.Yaml

/-! ## Scalars -/

/-- The truth value of a word in lower case. -/
def truth? (text : ScalarText) : Option Bool :=
  match text with
  | .whole "yes" | .whole "true" | .whole "on" => some true
  | .whole "no" | .whole "false" | .whole "off" => some false
  | _ => none

def booleanOf (text : ScalarText) : Except ScalarFault Bool :=
  match truth? text.lower with
  | some value => .ok value
  | none => .error (.notBoolean text.lower)

def timeOf (text : ScalarText) : Except ScalarFault Timestamp :=
  let parsed := match text with
    | .whole text => Timestamp.parse (dropLineEnd text.toList)
    | .broken _ => none
  match parsed with
  | none => .error .notTimestamp
  | some (time, _) =>
    match time.problem with
    | none => .ok time
    | some reason => .error (.noSuchTime reason)

def bytesOf (text : ScalarText) : Option (List UInt8) :=
  match text with
  | .whole text => Binary.decode text.toList
  | .broken _ => none

/-- A text as a value. -/
def Datum.ofText : ScalarText → Datum
  | .whole t => .text t
  | .broken codes => .broken codes

/-- The value of a text under a tag. -/
def scalarValue (tag : Tag) (text : ScalarText) : Except Fault Datum :=
  match tag with
  | .null => .ok .null
  | .boolean => ((booleanOf text).map .boolean).mapError .scalar
  | .int => ((wholeNumber text).map .int).mapError .scalar
  | .float => ((realNumber text).map .float).mapError .scalar
  | .timestamp => ((timeOf text).map .time).mapError .scalar
  | .binary =>
    match bytesOf text with
    | some bytes => .ok (.bytes bytes)
    | none => .error .malformed
  | .string => .ok (.ofText text)
  | _ => .error .malformed

/-! ## Mappings that stand for texts -/

def Node.isValue : Node → Bool
  | .scalar tag _ | .sequence tag _ | .mapping tag _ => tag == .value
  | .enclosing _ => false

mutual

/-- The text that a node stands for: a mapping stands for that of its value entry. -/
def textOf : Node → Except Fault ScalarText
  | .scalar _ text => .ok text
  | .mapping _ entries => entryText entries
  | .sequence _ _ | .enclosing false => .error .malformed
  | .enclosing true => .error .endless

def entryText : List (Node × Node) → Except Fault ScalarText
  | [] => .error .malformed
  | (key, value) :: rest => if key.isValue then textOf value else entryText rest

end

/-- The value of a mapping under the tag of a scalar. -/
def mappingValue (tag : Tag) (entries : List (Node × Node)) : Except Fault Datum := do
  if !tag.isScalar then throw .malformed
  let text ← entryText entries
  if tag == .timestamp then throw (.scalar .timestampCollection) else scalarValue tag text

/-! ## Collections -/

/-- A value, or a fault and the number of collections around it. -/
abbrev Found := Except (Nat × Fault)

/-- Both values, or the fault that is inside fewer collections. -/
def both {α β : Type} : Found α → Found β → Found (α × β)
  | .ok a, .ok b => .ok (a, b)
  | .error (m, f), .error (n, g) => .error (if m ≤ n then (m, f) else (n, g))
  | .error f, .ok _ => .error f
  | .ok _, .error g => .error g

/-- The parts of two lists, in order. -/
def append {α : Type} (first second : Found (List α)) : Found (List α) :=
  (both first second).map fun (xs, ys) => xs ++ ys

/-- The key of a node; collections are none, and the sign of a value entry is a text. -/
def keyOf (level : Nat) (node : Node) (value : Found Datum) : Found Datum :=
  match node with
  | .scalar .value text => .ok (.ofText text)
  | _ =>
    match value with
    | .ok datum => if datum.isKey then .ok datum else .error (level, .malformed)
    | .error fault => .error fault

/-- The entries of a mapping, the last value of a key in the place of the first. -/
def distinct (entries : List (Datum × Datum)) : List (Datum × Datum) :=
  entries.foldl (fun kept (key, value) => Datum.put kept key value) []

/-- The level at which a node that does not suit its tag is at fault. -/
def faultLevel (tag : Tag) (level : Nat) : Nat := if tag.isCollection then level + 1 else level

mutual

/-- The value of a node inside a number of collections. -/
def found (level : Nat) : Node → Found Datum
  | .enclosing isMapping => .ok (.enclosing isMapping)
  | .scalar tag text => (scalarValue tag text).mapError (faultLevel tag level, ·)
  | .sequence tag items =>
    match tag with
    | .sequence => (foundItems (level + 1) items).map .list
    | .orderedMap | .pairs => (foundPairs (level + 1) items).map .list
    | _ => .error (faultLevel tag level, .malformed)
  | .mapping tag entries =>
    if tag == .mapping || tag == .set then
      if Node.mergesFit entries then
        (append (foundMerged (level + 1) entries) (foundEntries (level + 1) entries)).map
          fun entries =>
            if tag == .set then .set ((distinct entries).map Prod.fst) else .map (distinct entries)
      else .error (level + 1, .malformed)
    else (mappingValue tag entries).mapError (faultLevel tag level, ·)

def foundItems (level : Nat) : List Node → Found (List Datum)
  | [] => .ok []
  | item :: rest =>
    (both (found level item) (foundItems level rest)).map fun (item, rest) => item :: rest

/-- The values of mappings with one entry each, as pairs. -/
def foundPairs (level : Nat) : List Node → Found (List Datum)
  | [] => .ok []
  | .mapping _ [(key, value)] :: rest =>
    (both (both (found level key) (found level value)) (foundPairs level rest)).map
      fun ((key, value), rest) => .pair key value :: rest
  | _ :: _ => .error (level, .malformed)

/-- The values of the entries that a mapping has itself. -/
def foundEntries (level : Nat) : List (Node × Node) → Found (List (Datum × Datum))
  | [] => .ok []
  | (key, value) :: rest =>
    if key.isMerge then foundEntries level rest
    else
      (both (both (keyOf level key (found level key)) (found level value))
        (foundEntries level rest)).map fun (entry, rest) => entry :: rest

/-- The values of the entries that a mapping takes over from others. -/
def foundMerged (level : Nat) : List (Node × Node) → Found (List (Datum × Datum))
  | [] => .ok []
  | (key, source) :: rest =>
    if key.isMerge then append (foundSource level source) (foundMerged level rest)
    else foundMerged level rest

/-- The values of the entries that a merge gives; of several mappings the last comes first. -/
def foundSource (level : Nat) : Node → Found (List (Datum × Datum))
  | .mapping _ entries => append (foundMerged level entries) (foundEntries level entries)
  | .sequence _ items => foundSources level items
  | .scalar _ _ | .enclosing _ => .ok []

def foundSources (level : Nat) : List Node → Found (List (Datum × Datum))
  | [] => .ok []
  | item :: rest => append (foundSources level rest) (foundSource level item)

end

/-- The greatest number of collections around a node that a reader usually bears. -/
def usualDeepest : Nat := 480

/-- The value that bytes hold, whose nodes are inside so many collections at most; bytes without a
document hold null. -/
def read (deepest : Nat) (bytes : List UInt8) : Except Fault Datum := do
  match ← parse deepest bytes with
  | none => return .null
  | some root => (found 0 root).mapError Prod.snd

end SdlAssembly.Yaml
