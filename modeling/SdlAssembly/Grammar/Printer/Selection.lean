import SdlAssembly.Grammar.Printer.Value

/-!
# Printing selection sets

The compact form is the text between the braces on one line, as a key writes it; the laid-out form
gives every selection a line.
-/

namespace SdlAssembly.Grammar

open Layout

/-! ## The compact form -/

/-- Directives with a blank before each. -/
def trailingDirectives (directives : List Directive) : String :=
  String.join (directives.map fun directive => " " ++ directive.print)

mutual

def Selection.compact : Selection → String
  | .spread name directives => "..." ++ name ++ trailingDirectives directives
  | .inline condition directives selections =>
    "..." ++ (condition.map (" on " ++ ·)).getD "" ++ trailingDirectives directives
      ++ " \x7b " ++ " ".intercalate (Selection.compactAll selections) ++ " \x7d"
  | .field aliasName name arguments directives selections =>
    (aliasName.map (· ++ ": ")).getD "" ++ name
      ++ wrap "(" (", ".intercalate (arguments.map Argument.print)) ")"
      ++ trailingDirectives directives
      ++ match selections with
        | none => ""
        | some set => " \x7b " ++ " ".intercalate (Selection.compactAll set) ++ " \x7d"

def Selection.compactAll : List Selection → List String
  | [] => []
  | selection :: rest => selection.compact :: Selection.compactAll rest

end

/-- The text between the braces of a selection set. -/
def formatSelectionSet (set : SelectionSet) : String :=
  " ".intercalate (Selection.compactAll set)

/-! ## The laid-out form -/

/-- Longer argument lists are put on lines of their own. -/
def longestArgumentLine : Nat := 80

/-- A field up to its arguments. -/
def printFieldHead (aliasName : Option String) (name : String)
    (arguments : List Argument) : String :=
  let head := (aliasName.map (· ++ ": ")).getD "" ++ name
  let printed := arguments.map Argument.print
  let line := head ++ wrap "(" (join ", " printed) ")"
  if line.length > longestArgumentLine then
    head ++ wrap "(\n" (indent (join "\n" printed)) "\n)"
  else line

mutual

def Selection.print : Selection → String
  | .spread name directives => "..." ++ name ++ wrap " " (printDirectives directives)
  | .inline condition directives selections =>
    join " " ["...", (condition.map ("on " ++ ·)).getD "", printDirectives directives,
      block (Selection.printAll selections)]
  | .field aliasName name arguments directives selections =>
    join " " [printFieldHead aliasName name arguments, printDirectives directives,
      match selections with
        | none => ""
        | some set => block (Selection.printAll set)]

def Selection.printAll : List Selection → List String
  | [] => []
  | selection :: rest => selection.print :: Selection.printAll rest

end

/-- A selection set in braces, a line for each selection. -/
def printSelectionSet (set : SelectionSet) : String :=
  block (Selection.printAll set)

end SdlAssembly.Grammar
