import SdlAssembly.Grammar.Token
import SdlAssembly.Text.Excerpt

/-!
# Syntax errors

Why a text is not in the language and where that shows. A selection set on its own that is nested
too deep is given up without a place.
-/

namespace SdlAssembly.Grammar

open Text

/-! ## Faults -/

inductive SyntaxFault where
  | lexical (fault : LexicalFault)
  | expected (wanted : String) (found : Lexeme)
  | unexpected (found : Lexeme)
  | variableInConstant (name : String)
  | reservedEnumValue (found : Lexeme)
  | misplacedDescription
  | describedShorthand
  | nestedTooDeep
  deriving Repr, BEq, DecidableEq

def SyntaxFault.message : SyntaxFault → String
  | lexical fault => fault.message
  | expected wanted found => "Expected " ++ wanted ++ ", found " ++ found.describe ++ "."
  | unexpected found => "Unexpected " ++ found.describe ++ "."
  | variableInConstant name => "Unexpected variable '$" ++ name ++ "' in constant value."
  | reservedEnumValue found =>
    found.describe ++ " is reserved and cannot be used for an enum value."
  | misplacedDescription =>
    "Unexpected description, only GraphQL definitions support descriptions."
  | describedShorthand =>
    "Unexpected description, descriptions are not supported on shorthand queries."
  | nestedTooDeep => "Document is nested too deeply. Parsing aborted."

/-! ## Errors -/

/-- A fault and the position where it shows. -/
structure SyntaxError where
  fault : SyntaxFault
  position : Position
  deriving Repr, BEq, DecidableEq

namespace SyntaxError

def message (e : SyntaxError) : String := "Syntax Error: " ++ e.fault.message

def place (e : SyntaxError) : Place := e.position.place

/-- The message and the lines around the fault. -/
def report (e : SyntaxError) : String := e.message ++ "\n\n" ++ e.position.excerpt

end SyntaxError

/-- How reading a selection set on its own fails. -/
inductive SelectionFailure where
  | rejected (error : SyntaxError)
  | nestedTooDeep
  deriving Repr, BEq, DecidableEq

end SdlAssembly.Grammar
