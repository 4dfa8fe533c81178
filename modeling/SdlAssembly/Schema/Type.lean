import SdlAssembly.Grammar.Tree
import SdlAssembly.Schema.Constant
import SdlAssembly.Schema.Standard

/-!
# Types and schemas

Types refer to each other by name. A schema lists its types in the order in which they are reached,
the standard ones included, so that every reference has a target.
-/

namespace SdlAssembly.Schemas

open Grammar

/-! ## Members -/

/-- An argument of a field or directive, or a field of an input object. -/
structure InputField where
  name : String
  description : Option String := none
  type : TypeRef
  default : Option Constant := none
  deprecation : Option String := none
  deriving Repr, BEq, Inhabited

/-- An input that must be given: it is non-null and has no default. -/
def InputField.isRequired (field : InputField) : Bool :=
  field.type.isNonNull && field.default.isNone

structure Field where
  name : String
  description : Option String := none
  arguments : List InputField := []
  type : TypeRef
  deprecation : Option String := none
  deriving Repr, BEq, Inhabited

structure EnumValue where
  name : String
  description : Option String := none
  deprecation : Option String := none
  deriving Repr, BEq, Inhabited

/-! ## Types -/

inductive TypeShape where
  | scalar (specifiedBy : Option String)
  | object (interfaces : List String) (fields : List Field)
  | interface (interfaces : List String) (fields : List Field)
  | union (members : List String)
  | enum (values : List EnumValue)
  | inputObject (fields : List InputField) (oneOf : Bool)
  deriving Repr, BEq, Inhabited

structure NamedType where
  name : String
  description : Option String := none
  shape : TypeShape
  deriving Repr, BEq, Inhabited

namespace NamedType

def isLeaf (t : NamedType) : Bool :=
  match t.shape with
  | .scalar _ | .enum _ => true
  | _ => false

def isEnum (t : NamedType) : Bool :=
  match t.shape with
  | .enum _ => true
  | _ => false

def isObject (t : NamedType) : Bool :=
  match t.shape with
  | .object _ _ => true
  | _ => false

def isInterface (t : NamedType) : Bool :=
  match t.shape with
  | .interface _ _ => true
  | _ => false

def isInputObject (t : NamedType) : Bool :=
  match t.shape with
  | .inputObject _ _ => true
  | _ => false

/-- Whether values of the type can be given as inputs. -/
def isInput (t : NamedType) : Bool := t.isLeaf || t.isInputObject

/-- Whether fields can have the type. -/
def isOutput (t : NamedType) : Bool := !t.isInputObject

/-- The fields of an object or interface. -/
def fields (t : NamedType) : List Field :=
  match t.shape with
  | .object _ fields | .interface _ fields => fields
  | _ => []

def field? (t : NamedType) (name : String) : Option Field :=
  t.fields.find? fun field => field.name == name

/-- The interfaces that an object or interface declares. -/
def interfaces (t : NamedType) : List String :=
  match t.shape with
  | .object interfaces _ | .interface interfaces _ => interfaces
  | _ => []

/-- The fields of an input object. -/
def inputFields (t : NamedType) : List InputField :=
  match t.shape with
  | .inputObject fields _ => fields
  | _ => []

end NamedType

/-! ## Schemas -/

structure DirectiveType where
  name : String
  description : Option String := none
  arguments : List InputField := []
  repeatable : Bool := false
  locations : List String
  deriving Repr, BEq, Inhabited

/-- A schema; `defined` says that its documents have a schema definition, and `unchecked` that it
was built as a schema to be taken as valid. -/
structure Schema where
  description : Option String := none
  types : List NamedType
  directives : List DirectiveType
  query : Option String := none
  mutation : Option String := none
  subscription : Option String := none
  defined : Bool := false
  unchecked : Bool := false
  deriving Repr, BEq, Inhabited

namespace Schema

def type? (schema : Schema) (name : String) : Option NamedType :=
  schema.types.find? fun t => t.name == name

def typeNames (schema : Schema) : List String := schema.types.map (·.name)

def root? (schema : Schema) : OperationKind → Option String
  | .query => schema.query
  | .mutation => schema.mutation
  | .subscription => schema.subscription

def withRoot (schema : Schema) (operation : OperationKind) (root : Option String) : Schema :=
  match operation with
  | .query => { schema with query := root }
  | .mutation => { schema with mutation := root }
  | .subscription => { schema with subscription := root }

/-- The names of the root types there are. -/
def rootNames (schema : Schema) : List String := OperationKind.all.filterMap schema.root?

end Schema

end SdlAssembly.Schemas
