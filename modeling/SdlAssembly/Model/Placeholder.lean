import SdlAssembly.Documents.Role
import SdlAssembly.Log
import SdlAssembly.Registry
import SdlAssembly.Schema.Standard

/-!
# Placeholder scalars

A custom scalar is opaque: a placeholder with its name and description stands in for its
definition. The first definition of a name makes the placeholder, and the built-in scalars need
none.
-/

namespace SdlAssembly.Model

open Grammar Documents Schemas

structure Placeholder where
  name : String
  description : Option String
  deriving Repr, BEq, DecidableEq, Inhabited

abbrev Placeholders := Registry Placeholder

/-- The placeholder for a scalar definition. -/
def Placeholder.ofDefinition (node : TypeNode) : Placeholder :=
  ⟨node.name, node.description.map (·.text)⟩

/-- A custom scalar under the name of an introspection type. -/
structure ReservedName where
  name : String
  deriving Repr, BEq, DecidableEq

def ReservedName.message (e : ReservedName) : String :=
  "Redefinition of reserved type '" ++ e.name ++ "'"

/-- Registers a placeholder, unless the name is taken. -/
def registerPlaceholder (placeholders : Placeholders) (node : TypeNode) : Logged Placeholders :=
  if placeholders.contains node.name then ⟨placeholders, []⟩
  else
    Logged.note .debug ("Registered placeholder scalar '" ++ node.name ++ "'")
      ⟨placeholders.tryAdd node.name (Placeholder.ofDefinition node), []⟩

/-- Registers placeholders up to the first reserved name; what was registered before it stays. -/
def registerScalars : List TypeNode → Placeholders → Logged (Placeholders × Option ReservedName)
  | [], placeholders => ⟨(placeholders, none), []⟩
  | node :: rest, placeholders =>
    if isBuiltinScalar node.name then registerScalars rest placeholders
    else if isIntrospectionType node.name then ⟨(placeholders, some ⟨node.name⟩), []⟩
    else (registerPlaceholder placeholders node).andThen (registerScalars rest)

/-- Registers the scalar definitions of a document. -/
def collectPlaceholders (placeholders : Placeholders) (document : Document) :
    Logged (Placeholders × Option ReservedName) :=
  registerScalars (typesIn .scalarDefinition document) placeholders

/-- Registers the scalar definitions of documents in order, up to the first that fails. -/
def collectAllPlaceholders (placeholders : Placeholders) :
    List Document → Logged (Placeholders × Option ReservedName)
  | [] => ⟨(placeholders, none), []⟩
  | document :: rest =>
    (collectPlaceholders placeholders document).andThen fun
      | (placeholders', none) => collectAllPlaceholders placeholders' rest
      | failed => ⟨failed, []⟩

end SdlAssembly.Model
