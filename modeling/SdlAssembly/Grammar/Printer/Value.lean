import SdlAssembly.Grammar.Printer.Layout
import SdlAssembly.Grammar.Tree
import SdlAssembly.Text.Block
import SdlAssembly.Text.Quoted

/-!
# Printing values, directives and type references
-/

namespace SdlAssembly.Grammar

open Text Layout

/-- A string in quotes or triple quotes. -/
def printString (text : String) (block : Bool) : String :=
  if block then Block.quote text else Quoted.quote text

mutual

def Value.print : Value → String
  | .variable name => "$" ++ name
  | .int text | .float text | .enum text => text
  | .string text block => printString text block
  | .boolean true => "true"
  | .boolean false => "false"
  | .null => "null"
  | .list items => "[" ++ ", ".intercalate (Value.printItems items) ++ "]"
  | .object fields => "\x7b" ++ ", ".intercalate (Value.printFields fields) ++ "\x7d"

def Value.printItems : List Value → List String
  | [] => []
  | item :: rest => item.print :: Value.printItems rest

def Value.printFields : List (String × Value) → List String
  | [] => []
  | (name, value) :: rest => (name ++ ": " ++ value.print) :: Value.printFields rest

end

def Argument.print (argument : Argument) : String :=
  argument.name ++ ": " ++ argument.value.print

def Directive.print (directive : Directive) : String :=
  "@" ++ directive.name ++ wrap "(" (join ", " (directive.arguments.map Argument.print)) ")"

/-- Directives with blanks between them. -/
def printDirectives (directives : List Directive) : String :=
  join " " (directives.map Directive.print)

def TypeRef.print : TypeRef → String
  | named name => name
  | list item => "[" ++ item.print ++ "]"
  | nonNull inner => inner.print ++ "!"

end SdlAssembly.Grammar
