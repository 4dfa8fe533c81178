import SdlAssembly.Annotation.Argument
import SdlAssembly.Documents.Named
import SdlAssembly.Documents.Role
import SdlAssembly.Grammar.Printer.Selection
import SdlAssembly.Log
import SdlAssembly.Registry

/-!
# Entity keys

The fields that identify an object. A key on a schema extension is a global pattern, for any object
type that has its fields; a key on an extension of an object type is for that type alone, and the
first one of a type stays. The keys of a document are consulted in order, those of its schema
extensions first, and the first that is not a selection set stops the collection.
-/

namespace SdlAssembly.Annotation

open Grammar Documents

def keyDirective : String := "key"

def keyArgument : String := "fields"

def isKey (directive : Directive) : Bool := directive.name == keyDirective

/-- The text of a key. It counts only as the one argument of the directive, and as a string. -/
def keyFields? (directive : Directive) : Option String :=
  match directive.arguments with
  | [argument] => if argument.name == keyArgument then string? argument.value else none
  | _ => none

/-! ## Patterns -/

structure EntityPatterns where
  globals : List SelectionSet := []
  types : Registry SelectionSet := {}
  deriving Inhabited

def EntityPatterns.size (patterns : EntityPatterns) : Nat :=
  patterns.globals.length + patterns.types.size

/-! ## Failures -/

/-- What a key is written on. -/
inductive KeyScope where
  | schema
  | type (name : String)
  deriving Repr, BEq, DecidableEq

def KeyScope.text : KeyScope → String
  | schema => "schema"
  | type name => "type '" ++ name ++ "'"

/-- A key that is not a selection set, where it stands, and the document it is in. -/
structure KeyError where
  fields : String
  scope : String
  fileName : Option String
  cause : SyntaxError
  deriving Repr, BEq, DecidableEq

def KeyError.message (e : KeyError) : String :=
  let location := match usable e.fileName with
    | some name => " in '" ++ name ++ "'"
    | none => ""
  "Invalid @key(fields: \"" ++ e.fields ++ "\") on " ++ e.scope ++ location ++ ": "
    ++ e.cause.message

inductive KeyFailure where
  | invalid (error : KeyError)
  | nestedTooDeep
  deriving Repr, BEq, DecidableEq

/-- Reads the text of a key. -/
def parseKey (fields scope : String) (fileName : Option String) :
    Except KeyFailure SelectionSet :=
  match parseSelectionSet fields with
  | .ok set => .ok set
  | .error (.rejected e) => .error (.invalid ⟨fields, scope, fileName, e⟩)
  | .error .nestedTooDeep => .error .nestedTooDeep

/-! ## Consulted keys -/

/-- A key directive in its place; one of another shape has no fields. -/
structure ConsultedKey where
  scope : KeyScope
  fields : Option String
  deriving Repr, BEq, DecidableEq

/-- The key directives of a schema extension, all of them. -/
def schemaKeys (node : SchemaNode) : List ConsultedKey :=
  (node.directives.filter isKey).map fun directive => ⟨.schema, keyFields? directive⟩

/-- The first key directive of an extension of an object type. -/
def typeKey? (node : TypeNode) : Option ConsultedKey :=
  (firstDirective? node.directives keyDirective).map fun directive =>
    ⟨.type node.name, keyFields? directive⟩

/-- The keys of a document, in the order in which they are consulted. -/
def consultedKeys (document : Document) : List ConsultedKey :=
  (schemaExtensions document).flatMap schemaKeys
    ++ (typesIn .objectExtension document).filterMap typeKey?

/-! ## Collecting -/

/-- Adds a pattern in its scope. -/
def EntityPatterns.add (patterns : EntityPatterns) (scope : KeyScope) (set : SelectionSet) :
    EntityPatterns :=
  match scope with
  | .schema => { patterns with globals := patterns.globals ++ [set] }
  | .type name => { patterns with types := patterns.types.tryAdd name set }

private def addedMessage (patterns : EntityPatterns) (scope : KeyScope) (set : SelectionSet) :
    String :=
  match scope with
  | .schema => "Registered global entity pattern '" ++ formatSelectionSet set ++ "'"
  | .type name =>
    if patterns.types.contains name then
      "Type '" ++ name ++ "' already has an entity pattern, skipping later @key"
    else
      "Registered entity pattern '" ++ formatSelectionSet set ++ "' for type '" ++ name ++ "'"

def noteUnusable (scope : KeyScope) (t : Logged EntityPatterns) : Logged EntityPatterns :=
  match scope with
  | .schema => t
  | .type name =>
    t.note .debug
      ("@key on type '" ++ name ++ "' has no usable 'fields' argument, ignoring it")

@[simp] theorem noteUnusable_value (scope : KeyScope) (t : Logged EntityPatterns) :
    (noteUnusable scope t).value = t.value := by
  cases scope <;> rfl

/-- Collects keys up to the first that fails; what was collected before it stays. -/
def collectKeys (fileName : Option String) :
    List ConsultedKey → EntityPatterns → Logged (EntityPatterns × Option KeyFailure)
  | [], patterns => ⟨(patterns, none), []⟩
  | key :: rest, patterns =>
    match key.fields with
    | none =>
      (noteUnusable key.scope ⟨patterns, []⟩).andThen (collectKeys fileName rest)
    | some fields =>
      match parseKey fields key.scope.text fileName with
      | .error failure => ⟨(patterns, some failure), []⟩
      | .ok set =>
        (Logged.note .debug (addedMessage patterns key.scope set)
          ⟨patterns.add key.scope set, []⟩).andThen (collectKeys fileName rest)

/-- Collects the keys of a document. -/
def collectEntityPatterns (patterns : EntityPatterns) (d : NamedDocument) :
    Logged (EntityPatterns × Option KeyFailure) :=
  collectKeys d.displayName (consultedKeys d.document) patterns

/-- Collects the keys of documents in order. -/
def collectAllEntityPatterns (patterns : EntityPatterns) :
    List NamedDocument → Logged (EntityPatterns × Option KeyFailure)
  | [] => ⟨(patterns, none), []⟩
  | d :: rest =>
    (collectEntityPatterns patterns d).andThen fun
      | (patterns', none) => collectAllEntityPatterns patterns' rest
      | failed => ⟨failed, []⟩

end SdlAssembly.Annotation
