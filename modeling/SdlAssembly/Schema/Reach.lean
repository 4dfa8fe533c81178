import SdlAssembly.Schema.Introspection

/-!
# The order of types

A schema lists its types in the order in which they are reached: the given types in turn, each
followed by what its members lead to, then the root types, the types of directive arguments and the
types for introspection.
-/

namespace SdlAssembly.Schemas

open Grammar

/-- The types that the members of a type lead to, in order. -/
def NamedType.leadsTo (t : NamedType) : List String :=
  match t.shape with
  | .union members => members
  | .object interfaces fields | .interface interfaces fields =>
    interfaces ++ fields.flatMap fun field =>
      field.type.core :: field.arguments.map fun argument => argument.type.core
  | .inputObject fields _ => fields.map fun field => field.type.core
  | .scalar _ | .enum _ => []

/-- Adds a type and all that it leads to, depth first, after the types seen so far. A path through
types not seen before is no longer than `fuel`. -/
def reach (type? : String → Option NamedType) : (fuel : Nat) → List String → String → List String
  | 0, seen, _ => seen
  | fuel + 1, seen, name =>
    if seen.contains name then seen
    else
      match type? name with
      | none => seen
      | some t => t.leadsTo.foldl (reach type? fuel) (seen ++ [name])

/-- The order of the given types and those they lead to. Each given type is moved to the end when
its turn comes. -/
def orderOfTypes (type? : String → Option NamedType) (fuel : Nat) (given others : List String) :
    List String :=
  let ordered := given.foldl (fun seen name => reach type? fuel (seen.erase name) name) given
  others.foldl (reach type? fuel) ordered

end SdlAssembly.Schemas
