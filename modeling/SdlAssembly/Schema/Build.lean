import SdlAssembly.Annotation.Argument
import SdlAssembly.Schema.Fault
import SdlAssembly.Schema.Literal
import SdlAssembly.Schema.Reach

/-!
# Building schemas

Definitions become types, with extensions merged into the definitions they extend. Of several
definitions of one name the last counts, in the place of the first. Members are worked out type by
type in order, so the first fault met is the one that is told.
-/

namespace SdlAssembly.Schemas

open Grammar Annotation

/-! ## Sources of types -/

/-- Where a type comes from: it is there already, or it is written in a definition and
extensions. -/
inductive TypeSource where
  | ready (type : NamedType)
  | written (node : TypeNode) (extensions : List TypeNode)

abbrev Sources := List (String × TypeSource)

/-- Sets the value of a name in its place, or at the end if the name is new. -/
def put {α : Type} (name : String) (value : α) : List (String × α) → List (String × α)
  | [] => [(name, value)]
  | (key, old) :: rest =>
    if key == name then (key, value) :: rest else (key, old) :: put name value rest

/-- The last item of each name, in the place of the first. -/
def lastOfEach {α : Type} (name : α → String) (items : List α) : List α :=
  (items.foldl (fun kept item => put (name item) item kept) []).map Prod.snd

/-- The source of a name; standard types come first. -/
def Sources.find? (sources : Sources) (name : String) : Option TypeSource :=
  match standardType? name with
  | some t => some (.ready t)
  | none => sources.lookup name

/-- The type that a reference names must have a source. -/
def Sources.check (sources : Sources) (type : TypeRef) : Except BuildFault Unit :=
  if (sources.find? type.core).isSome then .ok () else .error (.unknownType type.core)

/-! ## Standard directives -/

/-- The last argument of a name counts. -/
def lastArgument? (directive : Directive) (name : String) : Option Argument :=
  directive.arguments.reverse.find? fun argument => argument.name == name

/-- The reason of a deprecation; a null reason is none. -/
def readDeprecation (directives : List Directive) : Except BuildFault (Option String) :=
  match firstDirective? directives deprecatedDirective with
  | none => .ok none
  | some directive =>
    match lastArgument? directive "reason" with
    | none => .ok (some defaultReason)
    | some argument =>
      match argument.value with
      | .null => .ok none
      | .string text _ => .ok (some text)
      | literal => .error (.directive (.invalid "reason" literal) argument.position)

/-- The address of the specification of a scalar. -/
def readSpecifiedBy (directives : List Directive) : Except BuildFault (Option String) :=
  match firstDirective? directives specifiedByDirective with
  | none => .ok none
  | some directive =>
    match lastArgument? directive "url" with
    | none => .error (.directive (.missing "url" "String!") directive.position)
    | some argument =>
      match argument.value with
      | .null => .error (.directive (.null "url" "String!") argument.position)
      | .string text _ => .ok (some text)
      | literal => .error (.directive (.invalid "url" literal) argument.position)

/-! ## Parts of nodes -/

/-- The name of the node that extends a type with such a body. -/
def extensionNode : TypeBody → String
  | .scalar => "ScalarTypeExtensionNode"
  | .object _ _ => "ObjectTypeExtensionNode"
  | .interface _ _ => "InterfaceTypeExtensionNode"
  | .union _ => "UnionTypeExtensionNode"
  | .enum _ => "EnumTypeExtensionNode"
  | .inputObject _ => "InputObjectTypeExtensionNode"

/-- Extensions must be of the kind of the type that they extend. -/
def checkExtensions (owner node : String) (extensions : List TypeNode) : Except BuildFault Unit :=
  if extensions.all fun extension => extensionNode extension.body == node then .ok ()
  else .error (.wrongExtension owner node)

def interfacesOf (node : TypeNode) : List String :=
  match node.body with
  | .object interfaces _ | .interface interfaces _ => interfaces
  | _ => []

def membersOf (node : TypeNode) : List String :=
  match node.body with
  | .union members => members
  | _ => []

def valuesOf (node : TypeNode) : Except BuildFault (List EnumValueDefinition) :=
  match node.body with
  | .enum values => .ok values
  | body => .error (.noEnumValues (extensionNode body))

def enumValue (d : EnumValueDefinition) : Except BuildFault EnumValue := do
  return { name := d.name
           description := d.description.map (·.text)
           deprecation := ← readDeprecation d.directives }

/-- The values of an enum, from its definition and extensions. -/
def enumValues (nodes : List TypeNode) : Except BuildFault (List EnumValue) := do
  let values ← nodes.mapM fun node => do (← valuesOf node).mapM enumValue
  return lastOfEach EnumValue.name values.flatten

/-! ## Inputs -/

/-- The kinds of a source that decide where references to it may stand. -/
def TypeSource.isInput : TypeSource → Bool
  | ready t => t.isInput
  | written node _ =>
    match node.body with
    | .scalar | .enum _ | .inputObject _ => true
    | .object _ _ | .interface _ _ | .union _ => false

def TypeSource.isOutput : TypeSource → Bool
  | ready t => t.isOutput
  | written node _ =>
    match node.body with
    | .inputObject _ => false
    | _ => true

def TypeSource.isInterface : TypeSource → Bool
  | ready t => t.isInterface
  | written node _ =>
    match node.body with
    | .interface _ _ => true
    | _ => false

def TypeSource.isObject : TypeSource → Bool
  | ready t => t.isObject
  | written node _ =>
    match node.body with
    | .object _ _ => true
    | _ => false

/-- Whether the source of a name passes a test. -/
def Sources.test (sources : Sources) (test : TypeSource → Bool) (name : String) : Bool :=
  ((sources.find? name).map test).getD false

/-- The default of an input, read against its type. -/
def readDefault (shape : String → Except BuildFault (InputShape BuildFault))
    (d : InputDefinition) : Except BuildFault (Option Constant) :=
  match d.default with
  | none => .ok none
  | some literal => readLiteral shape literal d.type

/-- An argument or input field with its default. -/
def inputField (sources : Sources) (shape : String → Except BuildFault (InputShape BuildFault))
    (wrongType : BuildFault) (d : InputDefinition) : Except BuildFault InputField := do
  sources.check d.type
  let default ← readDefault shape d
  let deprecation ← readDeprecation d.directives
  if sources.test TypeSource.isInput d.type.core then
    return { name := d.name
             description := d.description.map (·.text)
             type := d.type
             default := default
             deprecation := deprecation }
  else throw wrongType

/-- The definitions of the fields of an input object. -/
def inputDefinitionsOf (node : TypeNode) : List InputDefinition :=
  match node.body with
  | .inputObject fields => fields
  | _ => []

/-- The fields of an input object, given how named types are read. -/
def inputFields (sources : Sources) (shape : String → Except BuildFault (InputShape BuildFault))
    (nodes : List TypeNode) : Except BuildFault (List InputField) := do
  let fields ← (nodes.flatMap inputDefinitionsOf).mapM
    (inputField sources shape .inputFieldNotInput)
  return lastOfEach InputField.name fields

/-- Whether exactly one field of an input object must be given. -/
def isOneOf (node : TypeNode) : Bool := (firstDirective? node.directives oneOfDirective).isSome

/-- How a named type is read from literals. The defaults of input fields may need the fields of
other input objects; `fuel` bounds the length of such chains, which is at most the number of types
unless a default needs itself. -/
def inputShape (sources : Sources) :
    (fuel : Nat) → String → Except BuildFault (InputShape BuildFault)
  | 0, _ => .error .endlessDefault
  | fuel + 1, name =>
    match sources.find? name with
    | none => .error (.unknownType name)
    | some (.ready t) => if t.isLeaf then .ok (.leaf t) else .error (.defaultNotInput name)
    | some (.written node extensions) =>
      match node.body with
      | .scalar => .ok (.leaf { name := name, shape := .scalar none })
      | .enum _ => do
        let values ← enumValues (node :: extensions)
        return .leaf { name := name, shape := .enum values }
      | .inputObject _ =>
        let fields (_ : Unit) :=
          (inputFields sources (inputShape sources fuel) (node :: extensions)).mapError
            (.unresolved name .fields)
        .ok (.object fields (isOneOf node))
      | _ => .error (.defaultNotInput name)

/-- Enough for all chains of defaults that end. -/
def Sources.shape (sources : Sources) (name : String) :
    Except BuildFault (InputShape BuildFault) :=
  inputShape sources (sources.length + 1) name

/-! ## Fields -/

def argumentsFrom (sources : Sources) (definitions : List InputDefinition) :
    Except BuildFault (List InputField) := do
  let arguments ← definitions.mapM (inputField sources sources.shape .argumentNotInput)
  return lastOfEach InputField.name arguments

def outputField (sources : Sources) (d : FieldDefinition) : Except BuildFault Field := do
  sources.check d.type
  let arguments ← argumentsFrom sources d.arguments
  let deprecation ← readDeprecation d.directives
  if sources.test TypeSource.isOutput d.type.core then
    return { name := d.name
             description := d.description.map (·.text)
             arguments := arguments
             type := d.type
             deprecation := deprecation }
  else throw .fieldNotOutput

/-- The definitions of the fields of an object or interface. -/
def fieldDefinitionsOf (node : TypeNode) : List FieldDefinition :=
  match node.body with
  | .object _ fields | .interface _ fields => fields
  | _ => []

/-- The fields of an object or interface, the last of a name in the place of the first. -/
def outputFields (sources : Sources) (nodes : List TypeNode) :
    Except BuildFault (List Field) := do
  let fields ← (nodes.flatMap fieldDefinitionsOf).mapM (outputField sources)
  return lastOfEach Field.name fields

/-! ## Types -/

def inPart {α : Type} (owner : String) (part : TypePart) (result : Except BuildFault α) :
    Except BuildFault α :=
  result.mapError (.unresolved owner part)

/-- Names that all have sources. -/
def knownNames (sources : Sources) (names : List String) :
    Except BuildFault (List String) := do
  names.forM fun name => sources.check (.named name)
  return names

def interfacesFrom (sources : Sources) (name : String) (nodes : List TypeNode) :
    Except BuildFault (List String) := do
  let interfaces ← inPart name .interfaces (knownNames sources (nodes.flatMap interfacesOf))
  if interfaces.all (sources.test TypeSource.isInterface) then return interfaces
  else throw (.notInterfaces name)

def membersFrom (sources : Sources) (name : String) (nodes : List TypeNode) :
    Except BuildFault (List String) := do
  let members ← inPart name .types (knownNames sources (nodes.flatMap membersOf))
  if members.all (sources.test TypeSource.isObject) then return members
  else throw (.notObjects name)

/-- What a definition and its extensions say of a type. -/
def shapeOf (sources : Sources) (node : TypeNode) (extensions : List TypeNode) :
    Except BuildFault TypeShape := do
  let nodes := node :: extensions
  match node.body with
  | .scalar => return .scalar (← readSpecifiedBy node.directives)
  | .object _ _ =>
    let interfaces ← interfacesFrom sources node.name nodes
    return .object interfaces (← inPart node.name .fields (outputFields sources nodes))
  | .interface _ _ =>
    let interfaces ← interfacesFrom sources node.name nodes
    return .interface interfaces (← inPart node.name .fields (outputFields sources nodes))
  | .union _ => return .union (← membersFrom sources node.name nodes)
  | .enum _ => return .enum (← enumValues nodes)
  | .inputObject _ =>
    let fields := inputFields sources sources.shape nodes
    return .inputObject (← inPart node.name .fields fields) (isOneOf node)

def TypeSource.type (sources : Sources) : TypeSource → Except BuildFault NamedType
  | ready t => .ok t
  | written node extensions => do
    return { name := node.name
             description := node.description.map (·.text)
             shape := ← shapeOf sources node extensions }

/-- What is read from a definition at once, before any member is worked out. -/
def TypeSource.readAtOnce : TypeSource → Except BuildFault Unit
  | ready _ => .ok ()
  | written node extensions => do
    match node.body with
    | .scalar => discard (readSpecifiedBy node.directives)
    | .enum _ => discard (enumValues (node :: extensions))
    | _ => pure ()
    checkExtensions node.name (extensionNode node.body) extensions

/-! ## Documents -/

def typeDefinitions (definitions : List Definition) : List TypeNode :=
  definitions.filterMap fun
    | .type node => some node
    | _ => none

def typeExtensions (definitions : List Definition) : List TypeNode :=
  definitions.filterMap fun
    | .typeExtension node => some node
    | _ => none

def directiveDefinitions (definitions : List Definition) : List DirectiveDefinition :=
  definitions.filterMap fun
    | .directive node => some node
    | _ => none

def schemaNodes (definitions : List Definition) : List SchemaNode × List SchemaNode :=
  (definitions.filterMap fun
    | .schema node => some node
    | _ => none,
  definitions.filterMap fun
    | .schemaExtension node => some node
    | _ => none)

/-- Whether definitions say anything about a type system. -/
def describesTypes (definitions : List Definition) : Bool :=
  definitions.any fun
    | .operation _ | .fragment _ => false
    | .schema _ | .directive _ | .type _ | .schemaExtension _ | .typeExtension _ => true

/-- An existing scalar takes the specification that its extensions give. -/
def extendExisting (extensions : List TypeNode) (t : NamedType) : Except BuildFault NamedType :=
  match t.shape with
  | .scalar specifiedBy =>
    if isStandardType t.name then .ok t
    else do
      let own := extensions.filter fun node => node.name == t.name
      let given ← own.mapM fun node => readSpecifiedBy node.directives
      checkExtensions t.name (extensionNode .scalar) own
      let last := (given.filterMap id).reverse.find? fun text => !text.isEmpty
      return { t with shape := .scalar (last <|> specifiedBy) }
  | _ => .ok t

/-- The source that a definition makes; it does not replace a standard type. -/
def sourceOf (extensions : List TypeNode) (node : TypeNode) : TypeSource :=
  match standardType? node.name with
  | some t => .ready t
  | none => .written node (extensions.filter fun e => e.name == node.name)

/-- The sources of the existing types and of definitions. -/
def sourcesOf (existing : List NamedType) (definitions : List Definition) : Sources :=
  let extensions := typeExtensions definitions
  let start : Sources := existing.map fun t => (t.name, .ready t)
  (typeDefinitions definitions).foldl
    (fun sources node => put node.name (sourceOf extensions node) sources) start

/-- The root types that schema nodes bind, later bindings over earlier ones. -/
def bindRoots (sources : Sources) (schema : Schema) (nodes : List SchemaNode) :
    Except BuildFault Schema := do
  (nodes.flatMap (·.roots)).foldlM (fun schema binding => do
    sources.check (.named binding.type)
    return schema.withRoot binding.operation (some binding.type)) schema

def directiveType (sources : Sources) (d : DirectiveDefinition) :
    Except BuildFault DirectiveType := do
  return { name := d.name
           description := d.description.map (·.text)
           arguments := ← argumentsFrom sources d.arguments
           repeatable := d.repeatable
           locations := d.locations }

/-- Puts the types of a schema in the order in which they are reached. -/
def Schema.arrange (schema : Schema) (given : List NamedType) : Schema :=
  let known := given ++ standardTypes.filter fun t => !given.any (·.name == t.name)
  let type? (name : String) := known.find? fun t => t.name == name
  let others := schema.rootNames
    ++ schema.directives.flatMap (fun d => d.arguments.map fun argument => argument.type.core)
    ++ [introspectionRoot]
  let order := orderOfTypes type? (known.length + 1) (given.map (·.name)) others
  { schema with types := order.filterMap type? }

/-- Adds definitions to a schema; the directives of the result are chosen by `directives` from
those that are defined. -/
def extendWith (base : Schema) (definitions : List Definition) (unchecked : Bool)
    (adjust : Schema → Schema) : Except BuildFault Schema := do
  if !describesTypes definitions then
    let schema := adjust base
    return schema.arrange schema.types
  let extensions := typeExtensions definitions
  let existing ← base.types.mapM (extendExisting extensions)
  let sources := sourcesOf existing definitions
  (typeDefinitions definitions).forM fun node =>
    (sourceOf extensions node).readAtOnce
  let (schemaDefinitions, schemaExtensions) := schemaNodes definitions
  let rooted ← bindRoots sources base schemaDefinitions.getLast?.toList
  let rooted ← bindRoots sources rooted schemaExtensions
  let added ← (directiveDefinitions definitions).mapM (directiveType sources)
  let description := match schemaDefinitions.getLast? with
    | some node => node.description.map (·.text)
    | none => base.description
  let schema := adjust
    { rooted with
      description := description
      directives := base.directives ++ added
      defined := base.defined || !schemaDefinitions.isEmpty
      unchecked := unchecked
      types := [] }
  let types ← sources.mapM fun (_, source) => source.type sources
  return schema.arrange types

end SdlAssembly.Schemas
