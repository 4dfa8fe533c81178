import SdlAssembly.Grammar.Tree

/-!
# Reading directives

An annotation is a directive with a string argument. Of several directives of one name, and of
several arguments of one name, the first is read.
-/

namespace SdlAssembly.Annotation

open Grammar

/-- The first directive of a name. -/
def firstDirective? (directives : List Directive) (name : String) : Option Directive :=
  directives.find? fun directive => directive.name == name

/-- The first argument of a name. -/
def argument? (directive : Directive) (name : String) : Option Value :=
  (directive.arguments.find? fun argument => argument.name == name).map (·.value)

/-- The text of a string value. -/
def string? : Value → Option String
  | .string text _ => some text
  | _ => none

/-- The text of the first argument of a name, if that is a string. -/
def stringArgument? (directive : Directive) (name : String) : Option String :=
  (argument? directive name).bind string?

/-- The argument that annotations are read from. -/
def nameArgument : String := "name"

/-- The string argument of the first directive of a name. -/
def directiveValue? (directives : List Directive) (name : String)
    (argument : String := nameArgument) : Option String :=
  (firstDirective? directives name).bind (stringArgument? · argument)

end SdlAssembly.Annotation
