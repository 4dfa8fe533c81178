import SdlAssembly.Schema.Literal

/-!
# Printing schemas

The definitions of a schema as a document: its schema definition if that says something, the
directives that are not standard, and the types that are not standard in the order of the schema.
Defaults are written as literals of their types, which a default of a custom scalar may not have.
-/

namespace SdlAssembly.Schemas

open Grammar Text

/-- A printed part, or the default that cannot be written. -/
abbrev Printed := Except Unwritable String

/-! ## Descriptions -/

/-- Puts an indentation after every line feed. -/
def indentRest (indentation text : String) : String :=
  String.ofList (text.toList.flatMap fun c =>
    if c == '\n' then '\n' :: indentation.toList else [c])

/-- A description on the lines before what it describes. A blank line parts it from what comes
before it in a block. -/
def printDescribed (description : Option String) (indentation : String := "")
    (first : Bool := true) : String :=
  match description with
  | none => ""
  | some text =>
    let literal := printString text (Block.isWritable text)
    (if !indentation.isEmpty && !first then "\n" else "") ++ indentation
      ++ indentRest indentation literal ++ "\n"

/-! ## Marks -/

def printDeprecation (deprecation : Option String) : String :=
  match deprecation with
  | none => ""
  | some reason =>
    if reason == defaultReason then " @deprecated"
    else " @deprecated(reason: " ++ Quoted.quote reason ++ ")"

def printSpecifiedBy (url : Option String) : String :=
  match url with
  | none => ""
  | some text => " @specifiedBy(url: " ++ Quoted.quote text ++ ")"

/-! ## Members -/

/-- Items on lines of their own between braces, if there are any. -/
def printBlock (items : List String) : String :=
  if items.isEmpty then "" else " \x7b\n" ++ "\n".intercalate items ++ "\n\x7d"

/-- Prints items with the knowledge of which comes first. -/
def printEach {α : Type} (print : Bool → α → Printed) : List α → Except Unwritable (List String)
  | [] => .ok []
  | first :: rest => do return (← print true first) :: (← rest.mapM (print false))

/-- The literal of the default of an input, if it has one. -/
def writeDefault (schema : Schema) (field : InputField) : Except Unwritable (Option Value) :=
  match field.default with
  | none => .ok none
  | some value => writeConstant schema.type? value field.type

def printWritten : Option Value → String
  | none => ""
  | some literal => " = " ++ literal.print

def printInput (schema : Schema) (field : InputField) : Printed := do
  let default ← writeDefault schema field
  return field.name ++ ": " ++ field.type.print ++ printWritten default
    ++ printDeprecation field.deprecation

/-- Arguments on one line, or on lines of their own if one of them is described. -/
def printArguments (schema : Schema) (arguments : List InputField) (indentation : String := "") :
    Printed := do
  if arguments.isEmpty then return ""
  else if arguments.all fun argument => (argument.description.getD "").isEmpty then
    return "(" ++ ", ".intercalate (← arguments.mapM (printInput schema)) ++ ")"
  else
    let inner := "  " ++ indentation
    let lines ← printEach (fun first argument => do
      return printDescribed argument.description inner first ++ inner
        ++ (← printInput schema argument)) arguments
    return "(\n" ++ "\n".intercalate lines ++ "\n" ++ indentation ++ ")"

def printFields (schema : Schema) (fields : List Field) : Printed := do
  let lines ← printEach (fun first (field : Field) => do
    return printDescribed field.description "  " first ++ "  " ++ field.name
      ++ (← printArguments schema field.arguments "  ") ++ ": " ++ field.type.print
      ++ printDeprecation field.deprecation) fields
  return printBlock lines

def printEnumValues (values : List EnumValue) : Printed := do
  let lines ← printEach (fun first (value : EnumValue) =>
    .ok (printDescribed value.description "  " first ++ "  " ++ value.name
      ++ printDeprecation value.deprecation)) values
  return printBlock lines

def printInputFields (schema : Schema) (fields : List InputField) : Printed := do
  let lines ← printEach (fun first (field : InputField) => do
    return printDescribed field.description "  " first ++ "  " ++ (← printInput schema field))
    fields
  return printBlock lines

def printImplements (interfaces : List String) : String :=
  if interfaces.isEmpty then "" else " implements " ++ " & ".intercalate interfaces

/-! ## Types and directives -/

def printType (schema : Schema) (t : NamedType) : Printed := do
  let described := printDescribed t.description
  match t.shape with
  | .scalar url => return described ++ "scalar " ++ t.name ++ printSpecifiedBy url
  | .object interfaces fields =>
    return described ++ "type " ++ t.name ++ printImplements interfaces
      ++ (← printFields schema fields)
  | .interface interfaces fields =>
    return described ++ "interface " ++ t.name ++ printImplements interfaces
      ++ (← printFields schema fields)
  | .union members =>
    return described ++ "union " ++ t.name
      ++ (if members.isEmpty then "" else " = " ++ " | ".intercalate members)
  | .enum values => return described ++ "enum " ++ t.name ++ (← printEnumValues values)
  | .inputObject fields oneOf =>
    return described ++ "input " ++ t.name ++ (if oneOf then " @oneOf" else "")
      ++ (← printInputFields schema fields)

def printDirectiveType (schema : Schema) (d : DirectiveType) : Printed := do
  return printDescribed d.description ++ "directive @" ++ d.name
    ++ (← printArguments schema d.arguments) ++ (if d.repeatable then " repeatable" else "")
    ++ " on " ++ " | ".intercalate d.locations

/-! ## Schemas -/

/-- The name that the root type of an operation has unless a schema definition says otherwise. -/
def conventionalRoot : OperationKind → String
  | .query => "Query"
  | .mutation => "Mutation"
  | .subscription => "Subscription"

/-- Whether all root types there are have their conventional names. -/
def Schema.hasConventionalRoots (schema : Schema) : Bool :=
  OperationKind.all.all fun operation =>
    match schema.root? operation with
    | none => true
    | some name => name == conventionalRoot operation

/-- The schema definition, left out where it would say nothing. -/
def printSchemaDefinition (schema : Schema) : List String :=
  if schema.description.isNone && schema.hasConventionalRoots then []
  else
    let roots := OperationKind.all.filterMap fun operation =>
      (schema.root? operation).map fun name => "  " ++ operation.keyword ++ ": " ++ name
    [printDescribed schema.description ++ "schema \x7b\n" ++ "\n".intercalate roots ++ "\n\x7d"]

def printSchema (schema : Schema) : Printed := do
  let directives ← (schema.directives.filter fun d => !isStandardDirective d.name).mapM
    (printDirectiveType schema)
  let types ← (schema.types.filter fun t => !isStandardType t.name).mapM (printType schema)
  return "\n\n".intercalate (printSchemaDefinition schema ++ directives ++ types)

end SdlAssembly.Schemas
