import SdlAssembly.Grammar.Tree

/-!
# Roles of definitions

Assembly tells a few kinds of definitions apart. One extension of any kind makes the whole document
an annotation document, the definitions in it included.
-/

namespace SdlAssembly.Documents

open Grammar

/-! ## Definitions -/

inductive DefinitionRole where
  | scalarDefinition
  | scalarExtension
  | enumExtension
  | objectExtension
  | schemaExtension
  | otherExtension
  | other
  deriving Repr, BEq, DecidableEq, Inhabited

namespace DefinitionRole

def all : List DefinitionRole :=
  [scalarDefinition, scalarExtension, enumExtension, objectExtension, schemaExtension,
    otherExtension, other]

def isExtension : DefinitionRole → Bool
  | scalarDefinition | other => false
  | scalarExtension | enumExtension | objectExtension | schemaExtension | otherExtension => true

/-- The name of the role in reports. -/
def label : DefinitionRole → String
  | scalarDefinition => "scalarTypeDefinition"
  | scalarExtension => "scalarTypeExtension"
  | enumExtension => "enumTypeExtension"
  | objectExtension => "objectTypeExtension"
  | schemaExtension => "schemaExtension"
  | otherExtension => "otherExtension"
  | other => "other"

def ofDefinition : Definition → DefinitionRole
  | .type d =>
    match d.body with
    | .scalar => scalarDefinition
    | _ => other
  | .typeExtension d =>
    match d.body with
    | .scalar => scalarExtension
    | .enum _ => enumExtension
    | .object _ _ => objectExtension
    | _ => otherExtension
  | .schemaExtension _ => schemaExtension
  | .operation _ | .fragment _ | .schema _ | .directive _ => other

end DefinitionRole

/-! ## Documents -/

inductive DocumentKind where
  | annotations
  | definitions
  deriving Repr, BEq, DecidableEq, Inhabited

def DocumentKind.label : DocumentKind → String
  | annotations => "annotation"
  | definitions => "definition"

def DocumentKind.ofDocument (document : Document) : DocumentKind :=
  if document.definitions.any fun d => (DefinitionRole.ofDefinition d).isExtension then annotations
  else definitions

/-- The definitions in one role, in document order. -/
def definitionsIn (role : DefinitionRole) (document : Document) : List Definition :=
  document.definitions.filter fun d => DefinitionRole.ofDefinition d == role

/-- The type nodes in one role, in document order. -/
def typesIn (role : DefinitionRole) (document : Document) : List TypeNode :=
  document.definitions.filterMap fun d =>
    if DefinitionRole.ofDefinition d == role then
      match d with
      | .type node | .typeExtension node => some node
      | _ => none
    else none

/-- The schema extensions, in document order. -/
def schemaExtensions (document : Document) : List SchemaNode :=
  document.definitions.filterMap fun
    | .schemaExtension node => some node
    | _ => none

end SdlAssembly.Documents
