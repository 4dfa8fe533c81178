import SdlAssembly.Grammar.Printer.Value
import SdlAssembly.Schema.Introspection
import SdlAssembly.Schema.Rules.Visit
import SdlAssembly.Text.Similar

/-!
# Rules on definitions

The rules that definitions must keep before a schema is built from them: names are defined once and
known where they are used, directives stand where they may with the arguments they take, and
extensions extend what is there. The violations are told in the order of the walk.
-/

namespace SdlAssembly.Schemas.Rules

open Grammar Text

/-! ## What the rules know -/

/-- The types and directives that are there before the definitions. The directives of a schema that
is extended count as defined; the standard ones around definitions that stand alone do not. -/
structure Surroundings where
  types : List NamedType := []
  directives : List DirectiveType := standardDirectives
  extended : Bool := false

/-- A schema that definitions extend. -/
def Surroundings.ofSchema (schema : Schema) : Surroundings :=
  ⟨schema.types, schema.directives, true⟩

/-- What is known of a directive. -/
structure KnownDirective where
  name : String
  locations : List String
  repeatable : Bool
  arguments : List String
  required : List (String × String)

/-- What the rules look up: the surroundings and what the document defines. -/
structure Scope where
  existing : List NamedType
  defined : List TypeNode
  directives : List KnownDirective

def KnownDirective.ofType (d : DirectiveType) : KnownDirective where
  name := d.name
  locations := d.locations
  repeatable := d.repeatable
  arguments := d.arguments.map (·.name)
  required := (d.arguments.filter (·.isRequired)).map fun a => (a.name, a.type.print)

/-- A required argument is non-null and has no default. -/
def requiredArguments (arguments : List InputDefinition) : List (String × String) :=
  (arguments.filter fun a => a.type.isNonNull && a.default.isNone).foldl (fun kept a =>
    if kept.any (·.1 == a.name) then
      kept.map fun pair => if pair.1 == a.name then (a.name, a.type.print) else pair
    else kept ++ [(a.name, a.type.print)]) []

def KnownDirective.ofDefinition (d : DirectiveDefinition) : KnownDirective where
  name := d.name
  locations := d.locations
  repeatable := d.repeatable
  arguments := d.arguments.map (·.name)
  required := requiredArguments d.arguments

def Scope.of (surroundings : Surroundings) (definitions : List Definition) : Scope where
  existing := surroundings.types
  defined := definitions.filterMap fun
    | .type node => some node
    | _ => none
  directives := surroundings.directives.map KnownDirective.ofType ++
    definitions.filterMap fun
      | .directive node => some (.ofDefinition node)
      | _ => none

/-- The last directive of a name counts. -/
def Scope.directive? (scope : Scope) (name : String) : Option KnownDirective :=
  scope.directives.reverse.find? fun d => d.name == name

def Scope.existing? (scope : Scope) (name : String) : Option NamedType :=
  scope.existing.find? fun t => t.name == name

def Scope.defined? (scope : Scope) (name : String) : Option TypeNode :=
  scope.defined.reverse.find? fun node => node.name == name

/-- What was met earlier on the walk. -/
structure Seen where
  schemaDefined : Bool := false
  operations : List OperationKind := []
  types : List String := []
  values : List (String × String) := []
  fields : List (String × String) := []
  directives : List String := []
  onSchema : List String := []
  onTypes : List (String × String) := []

/-! ## Kinds of types -/

/-- The word for the kind of a type in a message. -/
def kindOfBody : TypeBody → String
  | .scalar => "scalar"
  | .object _ _ => "object"
  | .interface _ _ => "interface"
  | .union _ => "union"
  | .enum _ => "enum"
  | .inputObject _ => "input object"

def kindOfShape : TypeShape → String
  | .scalar _ => "scalar"
  | .object _ _ => "object"
  | .interface _ _ => "interface"
  | .union _ => "union"
  | .enum _ => "enum"
  | .inputObject _ _ => "input object"

/-! ## Uniqueness -/

/-- The items that occur more than once, in order of first occurrence. -/
def repeated (names : List String) : List String :=
  names.eraseDups.filter fun name => 1 < names.count name

def checkSchema (seen : Seen) : Seen × List String :=
  ({ seen with schemaDefined := true },
    if seen.schemaDefined then ["Must provide only one schema definition."] else [])

def checkRoots (seen : Seen) (roots : List RootBinding) : Seen × List String :=
  roots.foldl (fun (seen, found) binding =>
    if seen.operations.contains binding.operation then
      (seen, found ++
        ["There can be only one " ++ binding.operation.keyword ++ " type in schema."])
    else ({ seen with operations := binding.operation :: seen.operations }, found)) (seen, [])

def checkTypeName (scope : Scope) (seen : Seen) (name : String) : Seen × List String :=
  if (scope.existing? name).isSome then
    (seen, ["Type '" ++ name
      ++ "' already exists in the schema. It cannot also be defined in this type definition."])
  else if seen.types.contains name then
    (seen, ["There can be only one type named '" ++ name ++ "'."])
  else ({ seen with types := name :: seen.types }, [])

/-- Whether an existing type has a member of a name. -/
def existingMember (scope : Scope) (type name : String)
    (members : NamedType → List String) : Bool :=
  ((scope.existing? type).map fun t => (members t).contains name).getD false

private def enumValueNames (t : NamedType) : List String :=
  match t.shape with
  | .enum values => values.map (·.name)
  | _ => []

private def fieldNames (t : NamedType) : List String :=
  t.fields.map (·.name) ++ t.inputFields.map (·.name)

def checkValues (scope : Scope) (seen : Seen) (type : String) (names : List String) :
    Seen × List String :=
  names.foldl (fun (seen, found) name =>
    let place := "Enum value '" ++ type ++ "." ++ name
    if existingMember scope type name enumValueNames then
      (seen, found ++ [place
        ++ "' already exists in the schema. It cannot also be defined in this type extension."])
    else if seen.values.contains (type, name) then
      (seen, found ++ [place ++ "' can only be defined once."])
    else ({ seen with values := (type, name) :: seen.values }, found)) (seen, [])

def checkFields (scope : Scope) (seen : Seen) (type : String) (names : List String) :
    Seen × List String :=
  names.foldl (fun (seen, found) name =>
    let place := "Field '" ++ type ++ "." ++ name
    if existingMember scope type name fieldNames then
      (seen, found ++ [place
        ++ "' already exists in the schema. It cannot also be defined in this type extension."])
    else if seen.fields.contains (type, name) then
      (seen, found ++ [place ++ "' can only be defined once."])
    else ({ seen with fields := (type, name) :: seen.fields }, found)) (seen, [])

def checkArgumentDefinitions (owner : String) (arguments : List InputDefinition) : List String :=
  (repeated (arguments.map (·.name))).map fun name =>
    "Argument '" ++ owner ++ "(" ++ name ++ ":)' can only be defined once."

def checkDirectiveName (surroundings : Surroundings) (seen : Seen) (name : String) :
    Seen × List String :=
  if surroundings.extended && surroundings.directives.any (·.name == name) then
    (seen, ["Directive '@" ++ name ++ "' already exists in the schema. It cannot be redefined."])
  else if seen.directives.contains name then
    (seen, ["There can be only one directive named '@" ++ name ++ "'."])
  else ({ seen with directives := name :: seen.directives }, [])

def checkArgumentNames (arguments : List Argument) : List String :=
  (repeated (arguments.map (·.name))).map fun name =>
    "There can be only one argument named '" ++ name ++ "'."

/-- The directives on one node, given the names met there before. -/
def checkRepeats (scope : Scope) (before : List String) (directives : List Directive) :
    List String × List String :=
  directives.foldl (fun (before, found) directive =>
    match scope.directive? directive.name with
    | some known =>
      if known.repeatable then (before, found)
      else if before.contains directive.name then
        (before, found ++ ["The directive '@" ++ directive.name
          ++ "' can only be used once at this location."])
      else (directive.name :: before, found)
    | none => (before, found)) (before, [])

/-- Schema nodes share their place, and so do all nodes of one type name. -/
def checkSite (scope : Scope) (seen : Seen) (site : Site) (directives : List Directive) :
    Seen × List String :=
  match site with
  | .schema =>
    let (names, found) := checkRepeats scope seen.onSchema directives
    ({ seen with onSchema := names }, found)
  | .type name _ =>
    let here := (seen.onTypes.filter fun pair => pair.1 == name).map (·.2)
    let (names, found) := checkRepeats scope here directives
    ({ seen with onTypes := names.map (fun d => (name, d)) ++ seen.onTypes }, found)
  | _ => (seen, (checkRepeats scope [] directives).2)

/-! ## References -/

def checkReference (scope : Scope) (name : String) (inTypeSystem : Bool) : List String :=
  if (scope.existing? name).isSome || (scope.defined? name).isSome then []
  else if inTypeSystem && isStandardType name then []
  else
    let known := scope.existing.map (·.name) ++ scope.defined.map (·.name)
    let options := if inTypeSystem then standardTypes.map (·.name) ++ known else known
    ["Unknown type '" ++ name ++ "'." ++ Similar.didYouMean (Similar.suggestions name options)]

def checkDirective (scope : Scope) (site : Site) (directive : Directive) : List String :=
  match scope.directive? directive.name with
  | none => ["Unknown directive '@" ++ directive.name ++ "'."]
  | some known =>
    if known.locations.contains site.location then []
    else ["Directive '@" ++ directive.name ++ "' may not be used on " ++ site.describe ++ "."]

def checkKnownArguments (scope : Scope) (directive : Directive) : List String :=
  match scope.directive? directive.name with
  | none => []
  | some known =>
    (directive.arguments.filter fun a => !known.arguments.contains a.name).map fun a =>
      "Unknown argument '" ++ a.name ++ "' on directive '@" ++ directive.name ++ "'."
        ++ Similar.didYouMean (Similar.suggestions a.name known.arguments)

def checkRequiredArguments (scope : Scope) (directive : Directive) : List String :=
  match scope.directive? directive.name with
  | none => []
  | some known =>
    (known.required.filter fun pair => !directive.arguments.any (·.name == pair.1)).map
      fun (name, type) =>
        "Directive '@" ++ directive.name ++ "' argument '" ++ name ++ "' of type '" ++ type
          ++ "' is required, but it was not provided."

def checkExtension (scope : Scope) (node : TypeNode) : List String :=
  let kind := kindOfBody node.body
  let found := match scope.defined? node.name with
    | some target => some (kindOfBody target.body)
    | none => (scope.existing? node.name).map (kindOfShape ·.shape)
  match found with
  | some target =>
    if target == kind then []
    else ["Cannot extend non-" ++ kind ++ " type '" ++ node.name ++ "'."]
  | none =>
    let options := scope.defined.map TypeNode.name ++ scope.existing.map NamedType.name
    ["Cannot extend type '" ++ node.name ++ "' because it is not defined."
      ++ Similar.didYouMean (Similar.suggestions node.name options)]

/-! ## The walk -/

/-- The rules on the members of a type definition or extension. -/
def checkMembers (scope : Scope) (seen : Seen) (node : TypeNode) : Seen × List String :=
  match node.body with
  | .enum values => checkValues scope seen node.name (values.map (·.name))
  | .object _ fields | .interface _ fields =>
    let (seen, found) := checkFields scope seen node.name (fields.map (·.name))
    (seen, found ++ fields.flatMap fun field =>
      checkArgumentDefinitions (node.name ++ "." ++ field.name) field.arguments)
  | .inputObject fields => checkFields scope seen node.name (fields.map (·.name))
  | .scalar | .union _ => (seen, [])

/-- The violations that one visit shows. -/
def check (surroundings : Surroundings) (scope : Scope) (seen : Seen) : Visit → Seen × List String
  | .schemaDefinition node =>
    let (seen, first) := checkSchema seen
    let (seen, second) := checkRoots seen node.roots
    (seen, first ++ second)
  | .schemaExtension node => checkRoots seen node.roots
  | .typeDefinition node =>
    let (seen, first) := checkTypeName scope seen node.name
    let (seen, second) := checkMembers scope seen node
    (seen, first ++ second)
  | .typeExtension node => checkMembers scope seen node
  | .directiveDefinition node =>
    let first := checkArgumentDefinitions ("@" ++ node.name) node.arguments
    let (seen, second) := checkDirectiveName surroundings seen node.name
    (seen, first ++ second)
  | .directives site directives => checkSite scope seen site directives
  | .extends node => (seen, checkExtension scope node)
  | .reference name inTypeSystem => (seen, checkReference scope name inTypeSystem)
  | .selectedField arguments => (seen, checkArgumentNames arguments)
  | .directive site directive =>
    (seen, checkDirective scope site directive ++ checkKnownArguments scope directive
      ++ checkArgumentNames directive.arguments)
  | .directiveEnd directive => (seen, checkRequiredArguments scope directive)
  | .objectField name again =>
    (seen, if again then ["There can be only one input field named '" ++ name ++ "'."] else [])

/-- The violations of definitions on top of their surroundings. -/
def violations (surroundings : Surroundings) (definitions : List Definition) : List String :=
  let scope := Scope.of surroundings definitions
  let step (state : Seen × List String) (visit : Visit) : Seen × List String :=
    let (seen, found) := check surroundings scope state.1 visit
    (seen, state.2 ++ found)
  ((visits definitions).foldl step ({}, [])).2

end SdlAssembly.Schemas.Rules
