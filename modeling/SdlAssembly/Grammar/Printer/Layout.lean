/-!
# Layout of printed trees

Absent parts are empty texts, and joining or wrapping leaves an empty text out.
-/

namespace SdlAssembly.Grammar.Layout

/-- Joins the parts that are not empty. -/
def join (separator : String) (parts : List String) : String :=
  separator.intercalate (parts.filter fun part => !part.isEmpty)

/-- Puts a text between two others, and nothing if it is empty. -/
def wrap (before text : String) (after : String := "") : String :=
  if text.isEmpty then "" else before ++ text ++ after

/-- Puts two blanks after every line feed of a text. -/
def shift : List Char → List Char
  | [] => []
  | '\n' :: rest => '\n' :: ' ' :: ' ' :: shift rest
  | c :: rest => c :: shift rest

/-- Indents every line of a text by two blanks. -/
def indent (text : String) : String :=
  wrap "  " (String.ofList (shift text.toList))

/-- Items on lines of their own between braces. -/
def block (items : List String) : String :=
  wrap "\x7b\n" (indent (join "\n" items)) "\n\x7d"

/-- Items between parentheses, on lines of their own if one of them takes several lines. -/
def parenthesized (items : List String) : String :=
  if items.any fun item => item.contains '\n' then wrap "(\n" (indent (join "\n" items)) "\n)"
  else wrap "(" (join ", " items) ")"

end SdlAssembly.Grammar.Layout
