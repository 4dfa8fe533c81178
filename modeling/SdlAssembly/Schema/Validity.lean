import SdlAssembly.Schema.Type
import SdlAssembly.Grammar.Printer.Value
import SdlAssembly.Text.Literal

/-!
# Validity of schemas

What a schema must keep beyond being built: root types are objects, types are not empty, names are
not reserved, types have what their interfaces ask of them, and an input object can be given
without giving it inside itself. The violations are told in the order of roots, directives and
types.
-/

namespace SdlAssembly.Schemas

open Grammar Text

/-! ## Violations -/

/-- A field of a type. -/
structure Member where
  type : String
  field : String
  deriving Repr, BEq, DecidableEq

def Member.text (m : Member) : String := m.type ++ "." ++ m.field

/-- An argument of a member. -/
def Member.argument (m : Member) (name : String) : String := m.text ++ "(" ++ name ++ ":)"

inductive Violation where
  | noQuery
  | queryNotObject (type : String)
  | rootNotObject (operation : OperationKind) (type : String)
  | reservedName (name : String)
  | deprecatedDirectiveArgument (directive argument : String)
  | deprecatedArgument (member : Member) (argument : String)
  | deprecatedInput (member : Member)
  | noFields (type : String)
  | noMembers (union : String)
  | repeatedMember (union member : String)
  | noValues (enum : String)
  | noInputFields (type : String)
  | nonNullChoice (member : Member)
  | defaultedChoice (member : Member)
  | endlessInput (type : String) (path : List String)
  | implementsItself (type : String)
  | repeatedInterface (type interface : String)
  | circularInterface (type interface : String)
  | missingAncestor (type ancestor interface : String)
  | missingField (wanted : Member) (type : String)
  | wrongFieldType (wanted : Member) (wantedType : TypeRef) (given : Member) (givenType : TypeRef)
  | missingArgument (wanted given : Member) (argument : String)
  | wrongArgumentType (wanted : Member) (wantedType : TypeRef) (given : Member)
      (givenType : TypeRef) (argument : String)
  | extraArgument (wanted given : Member) (argument : String)
  deriving Repr, BEq, DecidableEq

/-- The name of an operation at the start of a message. -/
def operationTitle : OperationKind → String
  | .query => "Query"
  | .mutation => "Mutation"
  | .subscription => "Subscription"

def Violation.message : Violation → String
  | noQuery => "Query root type must be provided."
  | queryNotObject type => "Query root type must be Object type, it cannot be " ++ type ++ "."
  | rootNotObject operation type =>
    operationTitle operation ++ " root type must be Object type if provided, it cannot be " ++ type
      ++ "."
  | reservedName name =>
    "Name " ++ Literal.quote name
      ++ " must not begin with '__', which is reserved by GraphQL introspection."
  | deprecatedDirectiveArgument directive argument =>
    "Required argument @" ++ directive ++ "(" ++ argument ++ ":) cannot be deprecated."
  | deprecatedArgument member argument =>
    "Required argument " ++ member.argument argument ++ " cannot be deprecated."
  | deprecatedInput member => "Required input field " ++ member.text ++ " cannot be deprecated."
  | noFields type => "Type " ++ type ++ " must define one or more fields."
  | noMembers union => "Union type " ++ union ++ " must define one or more member types."
  | repeatedMember union member =>
    "Union type " ++ union ++ " can only include type " ++ member ++ " once."
  | noValues enum => "Enum type " ++ enum ++ " must define one or more values."
  | noInputFields type => "Input Object type " ++ type ++ " must define one or more fields."
  | nonNullChoice member => "OneOf input field " ++ member.text ++ " must be nullable."
  | defaultedChoice member =>
    "OneOf input field " ++ member.text ++ " cannot have a default value."
  | endlessInput type path =>
    "Cannot reference Input Object '" ++ type
      ++ "' within itself through a series of non-null fields: '" ++ ".".intercalate path ++ "'."
  | implementsItself type =>
    "Type " ++ type ++ " cannot implement itself because it would create a circular reference."
  | repeatedInterface type interface =>
    "Type " ++ type ++ " can only implement " ++ interface ++ " once."
  | circularInterface type interface =>
    "Type " ++ type ++ " cannot implement " ++ interface
      ++ " because it would create a circular reference."
  | missingAncestor type ancestor interface =>
    "Type " ++ type ++ " must implement " ++ ancestor ++ " because it is implemented by "
      ++ interface ++ "."
  | missingField wanted type =>
    "Interface field " ++ wanted.text ++ " expected but " ++ type ++ " does not provide it."
  | wrongFieldType wanted wantedType given givenType =>
    "Interface field " ++ wanted.text ++ " expects type " ++ wantedType.print ++ " but "
      ++ given.text ++ " is type " ++ givenType.print ++ "."
  | missingArgument wanted given argument =>
    "Interface field argument " ++ wanted.argument argument ++ " expected but " ++ given.text
      ++ " does not provide it."
  | wrongArgumentType wanted wantedType given givenType argument =>
    "Interface field argument " ++ wanted.argument argument ++ " expects type "
      ++ wantedType.print ++ " but " ++ given.argument argument ++ " is type " ++ givenType.print
      ++ "."
  | extraArgument wanted given argument =>
    "Object field " ++ given.text ++ " includes required argument " ++ argument
      ++ " that is missing from the Interface field " ++ wanted.text ++ "."

/-! ## Names, roots and directives -/

/-- Names that begin with two underscores are reserved. -/
def checkName (name : String) : List Violation :=
  if name.startsWith "__" then [.reservedName name] else []

/-- Whether a root type is there and is not an object. -/
def notObject (schema : Schema) (name : String) : Bool :=
  !((schema.type? name).map (·.isObject)).getD false

def rootViolations (schema : Schema) : List Violation :=
  OperationKind.all.flatMap fun operation =>
    match operation, schema.root? operation with
    | .query, none => [.noQuery]
    | .query, some name => if notObject schema name then [.queryNotObject name] else []
    | _, none => []
    | operation, some name =>
      if notObject schema name then [.rootNotObject operation name] else []

def directiveViolations (d : DirectiveType) : List Violation :=
  checkName d.name ++ d.arguments.flatMap fun argument =>
    checkName argument.name ++
      if argument.isRequired && argument.deprecation.isSome then
        [.deprecatedDirectiveArgument d.name argument.name]
      else []

/-! ## Fields and interfaces -/

def argumentViolations (member : Member) (argument : InputField) : List Violation :=
  checkName argument.name ++
    if argument.isRequired && argument.deprecation.isSome then
      [.deprecatedArgument member argument.name]
    else []

def fieldViolations (t : NamedType) : List Violation :=
  (if t.fields.isEmpty then [.noFields t.name] else []) ++ t.fields.flatMap fun field =>
    checkName field.name ++ field.arguments.flatMap (argumentViolations ⟨t.name, field.name⟩)

/-- Whether a type by name is among the possible types of another. -/
def Schema.isPossible (schema : Schema) (super sub : String) : Bool :=
  match schema.type? super, schema.type? sub with
  | some super, some sub =>
    match super.shape with
    | .union members => (sub.isObject || sub.isInterface) && members.contains sub.name
    | .interface _ _ => sub.interfaces.contains super.name
    | _ => false
  | _, _ => false

/-- Whether values of a type can stand for values of another. -/
def Schema.isSubtype (schema : Schema) : (sub super : TypeRef) → Bool
  | .nonNull sub, .nonNull super => schema.isSubtype sub super
  | .nonNull sub, super => schema.isSubtype sub super
  | .list sub, .list super => schema.isSubtype sub super
  | .named sub, .named super => sub == super || schema.isPossible super sub
  | _, _ => false

/-- The interfaces of an interface must be those of the type too. -/
def ancestorViolations (t interface : NamedType) : List Violation :=
  interface.interfaces.flatMap fun ancestor =>
    if t.interfaces.contains ancestor then []
    else if ancestor == t.name then [.circularInterface t.name interface.name]
    else [.missingAncestor t.name ancestor interface.name]

/-- What the field of a type lacks that the field of an interface asks for. -/
def providedViolations (schema : Schema) (wanted : Member) (given : Member)
    (wantedField givenField : Field) : List Violation :=
  let argument? (arguments : List InputField) (name : String) :=
    arguments.find? fun argument => argument.name == name
  (if schema.isSubtype givenField.type wantedField.type then []
    else [.wrongFieldType wanted wantedField.type given givenField.type])
  ++ (wantedField.arguments.flatMap fun argument =>
    match argument? givenField.arguments argument.name with
    | none => [.missingArgument wanted given argument.name]
    | some provided =>
      if provided.type == argument.type then []
      else [.wrongArgumentType wanted argument.type given provided.type argument.name])
  ++ givenField.arguments.flatMap fun argument =>
    if argument.isRequired && (argument? wantedField.arguments argument.name).isNone then
      [.extraArgument wanted given argument.name]
    else []

def implementationViolations (schema : Schema) (t interface : NamedType) : List Violation :=
  interface.fields.flatMap fun wanted =>
    match t.field? wanted.name with
    | none => [.missingField ⟨interface.name, wanted.name⟩ t.name]
    | some given =>
      providedViolations schema ⟨interface.name, wanted.name⟩ ⟨t.name, given.name⟩ wanted given

/-- The violations of the interfaces of a type, after those of the given names. -/
def interfaceViolations (schema : Schema) (t : NamedType) (before : List String) :
    List String → List Violation
  | [] => []
  | name :: rest =>
    (if name == t.name then [.implementsItself name] else [])
    ++ if before.contains name then
      .repeatedInterface t.name name :: interfaceViolations schema t before rest
    else
      (match schema.type? name with
        | none => []
        | some interface =>
          ancestorViolations t interface ++ implementationViolations schema t interface)
        ++ interfaceViolations schema t (name :: before) rest

/-! ## Unions, enums and input objects -/

/-- Each occurrence of a member after the first. -/
def repeatedMembers (union : String) (before : List String) : List String → List Violation
  | [] => []
  | member :: rest =>
    if before.contains member then
      .repeatedMember union member :: repeatedMembers union before rest
    else repeatedMembers union (member :: before) rest

def inputViolations (t : NamedType) (fields : List InputField) (oneOf : Bool) : List Violation :=
  (if fields.isEmpty then [.noInputFields t.name] else []) ++ fields.flatMap fun field =>
    let member : Member := ⟨t.name, field.name⟩
    checkName field.name
      ++ (if field.isRequired && field.deprecation.isSome then [.deprecatedInput member] else [])
      ++ (if oneOf && field.type.isNonNull then [.nonNullChoice member] else [])
      ++ (if oneOf && field.default.isSome then [.defaultedChoice member] else [])

/-! ## Endless inputs -/

/-- The fields of an input object that must hold another input object, with its name. -/
def NamedType.mustHold (schema : Schema) (t : NamedType) : List (String × String) :=
  t.inputFields.filterMap fun field =>
    match field.type with
    | .nonNull (.named name) =>
      if ((schema.type? name).map (·.isInputObject)).getD false then some (field.name, name)
      else none
    | _ => none

/-- An input object on the way to another, and the field through which the way leads. -/
structure Through where
  type : String
  field : String

/-- The fields on the way back to a type, which the way starts from if it is met at all. -/
def wayBack (way : List Through) (type : String) : Option (List String) :=
  match way.dropWhile fun step => step.type != type with
  | [] => none
  | found => some (found.map (·.field))

/-- Looks for ways that lead back, from each field of a type in turn; types that were looked at
before are not looked at again. `fuel` bounds the length of a way. -/
def searchInputs (schema : Schema) : (fuel : Nat) → (way : List Through) → (visited : List String) →
    NamedType → List String × List Violation
  | 0, _, visited, _ => (visited, [])
  | fuel + 1, way, visited, t =>
    if visited.contains t.name then (visited, [])
    else
      (t.mustHold schema).foldl (fun (visited, found) (field, name) =>
        let way := way ++ [⟨t.name, field⟩]
        match wayBack way name, schema.type? name with
        | some path, _ => (visited, found ++ [.endlessInput name path])
        | none, none => (visited, found)
        | none, some next =>
          let (visited, more) := searchInputs schema fuel way visited next
          (visited, found ++ more)) (t.name :: visited, [])

/-! ## Schemas -/

/-- The violations of one type, given the input objects that were searched before. -/
def typeViolations (schema : Schema) (visited : List String) (t : NamedType) :
    List String × List Violation :=
  let name := if isIntrospectionType t.name then [] else checkName t.name
  match t.shape with
  | .scalar _ => (visited, name)
  | .object interfaces _ | .interface interfaces _ =>
    (visited, name ++ fieldViolations t ++ interfaceViolations schema t [] interfaces)
  | .union members =>
    (visited, name ++ (if members.isEmpty then [.noMembers t.name] else [])
      ++ repeatedMembers t.name [] members)
  | .enum values =>
    (visited, name ++ (if values.isEmpty then [.noValues t.name] else [])
      ++ values.flatMap fun value => checkName value.name)
  | .inputObject fields oneOf =>
    let (visited, endless) := searchInputs schema (schema.types.length + 1) [] visited t
    (visited, name ++ inputViolations t fields oneOf ++ endless)

/-- The violations of a schema; one that is taken as valid has none. -/
def Schema.violations (schema : Schema) : List Violation :=
  if schema.unchecked then []
  else
    let types := schema.types.foldl (fun (visited, found) t =>
      let (visited, more) := typeViolations schema visited t
      (visited, found ++ more)) ([], [])
    rootViolations schema ++ schema.directives.flatMap directiveViolations ++ types.2

end SdlAssembly.Schemas
