import SdlAssembly.Console.Handler.Expression
import SdlAssembly.Text.Literal

/-!
# Handlers

A tag whose name starts with an at sign sets a handler. Its parameters are the name of what is done
and its arguments in brackets, or the arguments alone, which are a literal.
-/

namespace SdlAssembly.Console

open Text

/-- Why the parameters of a handler cannot be read. -/
inductive HandlerFault where
  | unreadable (argument parameters : String) (cause : Handler.SyntaxFault)
  | notLiteral (parameters : String)
  deriving Repr, BEq, DecidableEq

def HandlerFault.message : HandlerFault → String
  | unreadable argument parameters cause =>
    "error parsing " ++ Literal.quote argument ++ " in " ++ Literal.quote parameters ++ "; "
      ++ cause.message
  | notLiteral parameters =>
    "error parsing " ++ Literal.quote parameters ++ "; malformed node or string on line 1"

namespace Handler

/-- The arguments in parameters without blanks around them. -/
def arguments (parameters : List Char) : List Char :=
  let name := parameters.takeWhile fun c => isInName c || c == '.'
  match parameters.drop name.length with
  | [] => ['(', ')']
  | '(' :: rest =>
    if rest.getLast? == some ')' && !rest.contains '\n' then '(' :: rest else parameters
  | _ => parameters

/-- Checks the parameters of a handler. -/
def checkParameters (parameters : List Char) : Except HandlerFault Unit :=
  let read := arguments (trim parameters)
  match isLiteral read with
  | .ok true => .ok ()
  | .ok false => .error (.notLiteral (String.ofList parameters))
  | .error cause => .error (.unreadable (String.ofList read) (String.ofList parameters) cause)

end Handler

end SdlAssembly.Console
