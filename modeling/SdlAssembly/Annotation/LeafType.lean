import SdlAssembly.Annotation.Argument
import SdlAssembly.Documents.Role
import SdlAssembly.Log
import SdlAssembly.Registry
import SdlAssembly.Text.Literal

/-!
# Leaf types

How a scalar or an enum is represented at run time and when it is written out. Extensions say it
with directives; the first extension of a name settles its entry for good, also what it leaves
open, and the table of defaults fills only names that no extension mentions.
-/

namespace SdlAssembly.Annotation

open Grammar Documents Text

structure LeafType where
  typeName : String
  runtimeType : Option String := none
  serializationType : Option String := none
  deriving Repr, BEq, DecidableEq, Inhabited

abbrev LeafTypes := Registry LeafType

def runtimeTypeDirective : String := "runtimeType"

def serializationTypeDirective : String := "serializationType"

/-! ## Text of an entry -/

private def describeText : Option String → String
  | none => "None"
  | some text => Literal.quote text

def LeafType.describe (info : LeafType) : String :=
  "LeafTypeInfo(type_name=" ++ Literal.quote info.typeName
    ++ ", runtime_type=" ++ describeText info.runtimeType
    ++ ", serialization_type=" ++ describeText info.serializationType ++ ")"

/-! ## Extensions -/

/-- The entry that an extension describes. -/
def LeafType.ofExtension (node : TypeNode) : LeafType where
  typeName := node.name
  runtimeType := directiveValue? node.directives runtimeTypeDirective
  serializationType := directiveValue? node.directives serializationTypeDirective

/-- Registers what an extension says, unless its name is taken. -/
def registerLeafType (registry : LeafTypes) (node : TypeNode) : Logged LeafTypes :=
  let name := node.name
  if registry.contains name then
    Logged.note .debug
      ("Leaf type '" ++ name ++ "' is already registered, skipping later extension") ⟨registry, []⟩
  else
    let info := LeafType.ofExtension node
    Logged.note .debug ("Registered leaf type " ++ info.describe) ⟨registry.tryAdd name info, []⟩

/-- The extensions of a document that describe leaf types: those of scalars before those of
enums. -/
def leafExtensions (document : Document) : List TypeNode :=
  typesIn .scalarExtension document ++ typesIn .enumExtension document

/-- Registers the leaf types of a document. -/
def collectLeafTypes (registry : LeafTypes) (document : Document) : Logged LeafTypes :=
  (leafExtensions document).foldl (fun t node => t.andThen (registerLeafType · node))
    ⟨registry, []⟩

/-- Registers the leaf types of documents in order. -/
def collectAllLeafTypes (registry : LeafTypes) (documents : List Document) : Logged LeafTypes :=
  documents.foldl (fun t document => t.andThen (collectLeafTypes · document)) ⟨registry, []⟩

/-! ## Defaults -/

/-- A name with its run time and serialized representations. -/
structure DefaultLeafType where
  name : String
  runtimeType : String
  serializationType : String

def defaultLeafTypes : List DefaultLeafType :=
  [⟨"String", "str", "str"⟩,
    ⟨"ID", "str", "str"⟩,
    ⟨"Boolean", "bool", "bool"⟩,
    ⟨"Byte", "int", "int"⟩,
    ⟨"Short", "int", "int"⟩,
    ⟨"Int", "int", "int"⟩,
    ⟨"Long", "int", "int"⟩,
    ⟨"Float", "float", "float"⟩,
    ⟨"Decimal", "decimal.Decimal", "decimal.Decimal"⟩,
    ⟨"Url", "pydantic.AnyUrl", "str"⟩,
    ⟨"Uuid", "uuid.UUID", "uuid.UUID"⟩,
    ⟨"Guid", "uuid.UUID", "uuid.UUID"⟩,
    ⟨"DateTime", "datetime.datetime", "str"⟩,
    ⟨"Date", "datetime.date", "str"⟩,
    ⟨"TimeSpan", "datetime.timedelta", "str"⟩,
    ⟨"ByteArray", "bytes", "bytes"⟩]

def DefaultLeafType.entry (d : DefaultLeafType) : String × LeafType :=
  (d.name, ⟨d.name, some d.runtimeType, some d.serializationType⟩)

/-- Adds the defaults of the names that are free. -/
def addDefaultLeafTypes (registry : LeafTypes) : Logged LeafTypes :=
  let full := (defaultLeafTypes.map DefaultLeafType.entry).foldl
    (fun r (name, info) => r.tryAdd name info) registry
  Logged.note .debug
    ("Added " ++ toString (full.size - registry.size) ++ " default leaf type(s)") ⟨full, []⟩

end SdlAssembly.Annotation
