import SdlAssembly.Grammar.Printer.Value
import SdlAssembly.Text.Excerpt

/-!
# Faults of definitions

Why definitions do not make a schema, whether or not they are validated first. A fault inside the
members of a type names the type around its cause.
-/

namespace SdlAssembly.Schemas

open Grammar Text

/-- Why the arguments of a standard directive cannot be read. -/
inductive DirectiveFault where
  | missing (argument type : String)
  | null (argument type : String)
  | invalid (argument : String) (literal : Value)
  deriving Repr, BEq

def DirectiveFault.message : DirectiveFault → String
  | missing argument type =>
    "Argument '" ++ argument ++ "' of required type '" ++ type ++ "' was not provided."
  | null argument type =>
    "Argument '" ++ argument ++ "' of non-null type '" ++ type ++ "' must not be null."
  | invalid argument literal =>
    "Argument '" ++ argument ++ "' has invalid value " ++ literal.print ++ "."

/-- The members of a type that are worked out on demand. -/
inductive TypePart where
  | fields | interfaces | types
  deriving Repr, BEq, DecidableEq

def TypePart.text : TypePart → String
  | fields => "fields"
  | interfaces => "interfaces"
  | types => "types"

inductive BuildFault where
  | unknownType (name : String)
  | argumentNotInput
  | fieldNotOutput
  | inputFieldNotInput
  | defaultNotInput (type : String)
  | notInterfaces (owner : String)
  | notObjects (owner : String)
  | directive (fault : DirectiveFault) (position : Option Position)
  /-- An extension of another kind, named by its node, is asked for the values of an enum. -/
  | noEnumValues (node : String)
  /-- A type of one kind has an extension of another; the node that fits is named. -/
  | wrongExtension (owner node : String)
  | endlessDefault
  | unresolved (owner : String) (part : TypePart) (cause : BuildFault)
  deriving Repr, BEq

def BuildFault.message : BuildFault → String
  | unknownType name => "Unknown type: '" ++ name ++ "'."
  | argumentNotInput => "Argument type must be a GraphQL input type."
  | fieldNotOutput => "Field type must be an output type."
  | inputFieldNotInput => "Input field type must be a GraphQL input type."
  | defaultNotInput type => "Unexpected input type: " ++ type ++ "."
  | notInterfaces owner =>
    owner ++ " interfaces must be specified as a collection of GraphQLInterfaceType instances."
  | notObjects owner =>
    owner ++ " types must be specified as a collection of GraphQLObjectType instances."
  | directive fault position =>
    match position with
    | none => fault.message
    | some position => fault.message ++ "\n\n" ++ position.excerpt
  | noEnumValues node => "'" ++ node ++ "' object has no attribute 'values'"
  | wrongExtension owner node =>
    owner ++ " extension AST nodes must be specified as a collection of " ++ node ++ " instances."
  | endlessDefault => "maximum recursion depth exceeded"
  | unresolved owner part cause =>
    owner ++ " " ++ part.text ++ " cannot be resolved. " ++ cause.message

end SdlAssembly.Schemas
