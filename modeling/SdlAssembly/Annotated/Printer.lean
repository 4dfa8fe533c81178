import SdlAssembly.Annotated.Metadata
import SdlAssembly.Grammar.Parser.Document
import SdlAssembly.Grammar.Printer.Document
import SdlAssembly.Schema.Printer

/-!
# Printing schemas with metadata

The metadata of a type is printed as directives after those that its definition has. They are added
to the syntax tree of the printed schema, so that no text is taken for a definition.
-/

namespace SdlAssembly.Annotated

open Grammar Text Annotation Schemas

/-! ## Metadata as directives -/

/-- A directive with one string argument. -/
def stringDirective (name argument text : String) : Directive :=
  { name := name, arguments := [{ name := argument, value := .string text false }] }

def leafDirectives (info : LeafType) : List Directive :=
  (info.runtimeType.map (stringDirective runtimeTypeDirective nameArgument)).toList
    ++ (info.serializationType.map (stringDirective serializationTypeDirective nameArgument)).toList

def keyDirectiveOf (key : SelectionSet) : Directive :=
  stringDirective keyDirective keyArgument (formatSelectionSet key)

/-- The directives that say what is known of a type. -/
def Metadata.directives (m : Metadata) : List Directive :=
  (m.leafType.map leafDirectives).getD [] ++ (m.entityKey.map keyDirectiveOf).toList

/-- Directives by type name. -/
abbrev DirectiveMap := List (String × List Directive)

/-- The directives of the types of which something is known. -/
def AnnotatedSchema.directives (annotated : AnnotatedSchema) : DirectiveMap :=
  (annotated.metadata.map fun (name, m) => (name, m.directives)).filter fun (_, directives) =>
    !directives.isEmpty

/-! ## Adding directives -/

/-- Adds the directives of its name to a type definition. -/
def appendDirectives (map : DirectiveMap) : Definition → Definition
  | .type node =>
    .type { node with directives := node.directives ++ (map.lookup node.name).getD [] }
  | d => d

/-- Adds directives to the type definitions of a text and prints it. -/
def addDirectives (text : String) (map : DirectiveMap) : Except SyntaxError String := do
  let document ← parseDocument ⟨unnamedSource, text⟩ false
  return printDefinitions (document.definitions.map (appendDirectives map))

/-- Why a schema with metadata cannot be printed. -/
inductive ComposeFailure where
  | unwritable (cause : Unwritable)
  | unreadable (error : SyntaxError)
  deriving Repr, BEq

/-- Prints a schema with its metadata. A schema without any definition is refused, as an empty text
is no document. -/
def AnnotatedSchema.print (annotated : AnnotatedSchema) : Except ComposeFailure String := do
  let text ← (printSchema annotated.schema).mapError .unwritable
  (addDirectives text annotated.directives).mapError .unreadable

end SdlAssembly.Annotated
