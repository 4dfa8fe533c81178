import SdlAssembly.Schema.Build
import SdlAssembly.Schema.Printer

/-!
# Root types by convention

Without a schema definition, the object types with the conventional names are the root types.
-/

namespace SdlAssembly.Schemas

open Grammar

/-- The operations without a root type for which there is an object type of the conventional
name. -/
def Schema.missingRoots (schema : Schema) : List OperationKind :=
  if schema.defined then []
  else
    OperationKind.all.filter fun operation =>
      (schema.root? operation).isNone
        && ((schema.type? (conventionalRoot operation)).map (·.isObject)).getD false

/-- Makes the conventionally named types the root types of operations. -/
def Schema.adoptRoots (schema : Schema) (operations : List OperationKind) : Schema :=
  operations.foldl (fun s operation => s.withRoot operation (some (conventionalRoot operation)))
    schema

/-- Assigns the root types that are missing and could be assigned. -/
def Schema.withDefaultRoots (schema : Schema) : Schema :=
  match schema.missingRoots with
  | [] => schema
  | missing => (schema.adoptRoots missing).arrange schema.types

/-! ## Schemas of one document -/

/-- A schema of nothing but what every schema has. -/
def Schema.bare : Schema := { types := [], directives := [] }

/-- Binds any types of the conventional names, of whatever kind, where there is no schema
definition, and adds the standard directives that are not defined. -/
def Schema.complete (names : List String) (schema : Schema) : Schema :=
  let rooted :=
    if schema.defined then schema
    else
      schema.adoptRoots (OperationKind.all.filter fun operation =>
        names.contains (conventionalRoot operation))
  let missing := standardDirectives.filter fun d => !rooted.directives.any (·.name == d.name)
  { rooted with directives := rooted.directives ++ missing }

/-- The schema of definitions alone. -/
def ofDefinitions (definitions : List Definition) (unchecked : Bool) :
    Except BuildFault Schema :=
  let names := definitions.filterMap fun
    | .type node => some node.name
    | _ => none
  extendWith .bare definitions unchecked (Schema.complete names)

/-- A schema of types alone, with the standard types and directives. -/
def Schema.ofTypes (types : List NamedType) : Schema :=
  let base : Schema := { types := [], directives := standardDirectives }
  base.arrange types

/-- The schema of definitions on top of a schema that is there already. -/
def Schema.extend (base : Schema) (definitions : List Definition) (unchecked : Bool) :
    Except BuildFault Schema :=
  extendWith base definitions unchecked id

end SdlAssembly.Schemas
