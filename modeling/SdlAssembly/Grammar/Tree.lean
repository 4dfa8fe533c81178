import SdlAssembly.Text.Source

/-!
# Syntax trees

Values, selections and the definitions of a document. Directives and arguments remember the
position they were read at, since messages about their values show it; it is absent in a tree that
was read without positions or that was made, not read.
-/

namespace SdlAssembly.Grammar

open Text

/-! ## Values -/

/-- A value. Numbers keep their written form, and a string remembers whether it is a block
string. -/
inductive Value where
  | variable (name : String)
  | int (text : String)
  | float (text : String)
  | string (text : String) (block : Bool)
  | boolean (value : Bool)
  | null
  | enum (name : String)
  | list (items : List Value)
  | object (fields : List (String × Value))
  deriving Repr, BEq, Inhabited

/-- An argument, with the position of its value. -/
structure Argument where
  name : String
  value : Value
  position : Option Position := none
  deriving Repr, BEq, Inhabited

structure Directive where
  name : String
  arguments : List Argument := []
  position : Option Position := none
  deriving Repr, BEq, Inhabited

/-- A reference to a type. -/
inductive TypeRef where
  | named (name : String)
  | list (item : TypeRef)
  | nonNull (inner : TypeRef)
  deriving Repr, BEq, DecidableEq, Inhabited

/-- The name at the core of a reference. -/
def TypeRef.core : TypeRef → String
  | named name => name
  | list item => item.core
  | nonNull inner => inner.core

def TypeRef.isNonNull : TypeRef → Bool
  | named _ | list _ => false
  | nonNull _ => true

/-- The reference without the marks that it may not be null. -/
def TypeRef.nullable : TypeRef → TypeRef
  | nonNull inner => inner.nullable
  | type => type

/-- The number of lists around the name of a reference. -/
def TypeRef.listDepth : TypeRef → Nat
  | named _ => 0
  | list item => item.listDepth + 1
  | nonNull inner => inner.listDepth

/-! ## Selections -/

/-- One selection; a selection set is a list of them. -/
inductive Selection where
  | field (aliasName : Option String) (name : String) (arguments : List Argument)
      (directives : List Directive) (selections : Option (List Selection))
  | spread (name : String) (directives : List Directive)
  | inline (condition : Option String) (directives : List Directive) (selections : List Selection)
  deriving Repr, BEq, Inhabited

abbrev SelectionSet := List Selection

/-! ## Executable definitions -/

inductive OperationKind where
  | query | mutation | subscription
  deriving Repr, BEq, DecidableEq, Inhabited

namespace OperationKind

/-- In the order in which root types are listed. -/
def all : List OperationKind := [query, mutation, subscription]

/-- The keyword of the operation. -/
def keyword : OperationKind → String
  | query => "query"
  | mutation => "mutation"
  | subscription => "subscription"

def ofKeyword? (text : String) : Option OperationKind :=
  all.find? fun kind => kind.keyword == text

end OperationKind

/-- A description, quoted or block. -/
structure Description where
  text : String
  block : Bool
  deriving Repr, BEq, DecidableEq, Inhabited

structure VariableDefinition where
  description : Option Description
  name : String
  type : TypeRef
  default : Option Value
  directives : List Directive
  deriving Repr, BEq, Inhabited

structure Operation where
  description : Option Description
  kind : OperationKind
  name : Option String
  variableDefinitions : List VariableDefinition
  directives : List Directive
  selections : SelectionSet
  deriving Repr, BEq, Inhabited

structure Fragment where
  description : Option Description
  name : String
  condition : String
  directives : List Directive
  selections : SelectionSet
  deriving Repr, BEq, Inhabited

/-! ## Type system definitions -/

/-- An argument of a field or directive, or a field of an input object. -/
structure InputDefinition where
  description : Option Description
  name : String
  type : TypeRef
  default : Option Value
  directives : List Directive
  deriving Repr, BEq, Inhabited

structure FieldDefinition where
  description : Option Description
  name : String
  arguments : List InputDefinition
  type : TypeRef
  directives : List Directive
  deriving Repr, BEq, Inhabited

structure EnumValueDefinition where
  description : Option Description
  name : String
  directives : List Directive
  deriving Repr, BEq, Inhabited

/-- What a type definition or extension of each kind contributes. -/
inductive TypeBody where
  | scalar
  | object (interfaces : List String) (fields : List FieldDefinition)
  | interface (interfaces : List String) (fields : List FieldDefinition)
  | union (members : List String)
  | enum (values : List EnumValueDefinition)
  | inputObject (fields : List InputDefinition)
  deriving Repr, BEq, Inhabited

/-- A type definition, or a type extension, which has no description. -/
structure TypeNode where
  description : Option Description
  name : String
  directives : List Directive
  body : TypeBody
  deriving Repr, BEq, Inhabited

/-- An operation bound to its root type. -/
structure RootBinding where
  operation : OperationKind
  type : String
  deriving Repr, BEq, Inhabited

/-- A schema definition, or a schema extension, which has no description. -/
structure SchemaNode where
  description : Option Description
  directives : List Directive
  roots : List RootBinding
  deriving Repr, BEq, Inhabited

structure DirectiveDefinition where
  description : Option Description
  name : String
  arguments : List InputDefinition
  repeatable : Bool
  locations : List String
  deriving Repr, BEq, Inhabited

/-! ## Documents -/

inductive Definition where
  | operation (definition : Operation)
  | fragment (definition : Fragment)
  | schema (definition : SchemaNode)
  | directive (definition : DirectiveDefinition)
  | type (definition : TypeNode)
  | schemaExtension (extension : SchemaNode)
  | typeExtension (extension : TypeNode)
  deriving Repr, BEq, Inhabited

/-- The name of a definition, if it has one. -/
def Definition.name? : Definition → Option String
  | operation d => d.name
  | fragment d => some d.name
  | schema _ | schemaExtension _ => none
  | directive d => some d.name
  | type d | typeExtension d => some d.name

/-- The directives written on a definition; a directive definition has none. -/
def Definition.directives : Definition → List Directive
  | operation d => d.directives
  | fragment d => d.directives
  | schema d | schemaExtension d => d.directives
  | directive _ => []
  | type d | typeExtension d => d.directives

/-- A parsed text: its definitions, and the name of the text if positions were kept. -/
structure Document where
  definitions : List Definition
  sourceName : Option String := none
  deriving Repr, BEq, Inhabited

end SdlAssembly.Grammar
