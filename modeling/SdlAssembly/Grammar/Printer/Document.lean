import SdlAssembly.Grammar.Printer.Selection

/-!
# Printing documents

Definitions are separated by blank lines, and a description stands on the lines before what it
describes.
-/

namespace SdlAssembly.Grammar

open Layout

/-- The lines of a description, if there is one. -/
def printDescription (description : Option Description) : String :=
  match description with
  | none => ""
  | some d => printString d.text d.block ++ "\n"

/-- A default value after its sign. -/
def printDefault (default : Option Value) : String :=
  match default with
  | none => ""
  | some value => "= " ++ value.print

/-! ## Executable definitions -/

def VariableDefinition.print (d : VariableDefinition) : String :=
  printDescription d.description ++ "$" ++ d.name ++ ": " ++ d.type.print
    ++ wrap " " (printDefault d.default) ++ wrap " " (printDirectives d.directives)

/-- Variables between parentheses, on lines of their own if one of them takes several lines. -/
def printVariables (definitions : List VariableDefinition) : String :=
  let items := definitions.map VariableDefinition.print
  if items.any fun item => item.contains '\n' then wrap "(\n" (join "\n" items) "\n)"
  else wrap "(" (join ", " items) ")"

/-- A query without name, variables, directives and description is printed as its selections. -/
def Operation.print (d : Operation) : String :=
  let head := printDescription d.description ++ join " " [d.kind.keyword,
    d.name.getD "" ++ printVariables d.variableDefinitions, printDirectives d.directives]
  (if head == "query" then "" else head ++ " ") ++ printSelectionSet d.selections

def Fragment.print (d : Fragment) : String :=
  printDescription d.description ++ "fragment " ++ d.name ++ " on " ++ d.condition ++ " "
    ++ wrap "" (printDirectives d.directives) " " ++ printSelectionSet d.selections

/-! ## Members of types -/

def InputDefinition.print (d : InputDefinition) : String :=
  printDescription d.description
    ++ join " " [d.name ++ ": " ++ d.type.print, printDefault d.default,
      printDirectives d.directives]

def FieldDefinition.print (d : FieldDefinition) : String :=
  printDescription d.description ++ d.name
    ++ parenthesized (d.arguments.map InputDefinition.print) ++ ": " ++ d.type.print
    ++ wrap " " (printDirectives d.directives)

def EnumValueDefinition.print (d : EnumValueDefinition) : String :=
  printDescription d.description ++ join " " [d.name, printDirectives d.directives]

/-! ## Type definitions and extensions -/

/-- The interfaces that a type implements. -/
def printInterfaces (interfaces : List String) : String :=
  wrap "implements " (join " & " interfaces)

/-- A definition or extension after its description and the word for an extension. -/
def TypeNode.printBare (d : TypeNode) : String :=
  let name := d.name
  let directives := printDirectives d.directives
  match d.body with
  | .scalar => join " " ["scalar", name, directives]
  | .object interfaces fields =>
    join " " ["type", name, printInterfaces interfaces, directives,
      block (fields.map FieldDefinition.print)]
  | .interface interfaces fields =>
    join " " ["interface", name, printInterfaces interfaces, directives,
      block (fields.map FieldDefinition.print)]
  | .union members =>
    join " " ["union", name, directives, wrap "= " (join " | " members)]
  | .enum values =>
    join " " ["enum", name, directives, block (values.map EnumValueDefinition.print)]
  | .inputObject fields =>
    join " " ["input", name, directives, block (fields.map InputDefinition.print)]

def RootBinding.print (d : RootBinding) : String :=
  d.operation.keyword ++ ": " ++ d.type

/-- A definition or extension after its description and the word for an extension. -/
def SchemaNode.printBare (d : SchemaNode) : String :=
  join " " ["schema", printDirectives d.directives, block (d.roots.map RootBinding.print)]

def DirectiveDefinition.print (d : DirectiveDefinition) : String :=
  printDescription d.description ++ "directive @" ++ d.name
    ++ parenthesized (d.arguments.map InputDefinition.print)
    ++ (if d.repeatable then " repeatable" else "")
    ++ " on " ++ join " | " d.locations

/-! ## Documents -/

def Definition.print : Definition → String
  | operation d => d.print
  | fragment d => d.print
  | schema d => printDescription d.description ++ d.printBare
  | directive d => d.print
  | type d => printDescription d.description ++ d.printBare
  | schemaExtension d => "extend " ++ d.printBare
  | typeExtension d => "extend " ++ d.printBare

/-- The definitions with blank lines between them. -/
def printDefinitions (definitions : List Definition) : String :=
  join "\n\n" (definitions.map Definition.print)

def Document.print (document : Document) : String := printDefinitions document.definitions

end SdlAssembly.Grammar
