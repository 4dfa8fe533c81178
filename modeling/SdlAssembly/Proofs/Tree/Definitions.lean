import SdlAssembly.Grammar.Parser.Document
import SdlAssembly.Proofs.Tree.Written

/-!
# The grammar of type systems

The lexemes that the definitions of a type system are written with, the definitions that can be
written, and those that nest no deeper than a parser reads.
-/

namespace SdlAssembly.Grammar

open Text Lexer

/-! ## Type references -/

namespace TypeRef

def lexemes : TypeRef → List Lexeme
  | named name => [.name name]
  | list item => .punctuator .bracketOpen :: (item.lexemes ++ [.punctuator .bracketClose])
  | nonNull inner => inner.lexemes ++ [.punctuator .bang]

/-- References that can be written have at most one mark at each level. -/
def Proper : TypeRef → Prop
  | named name => IsName name
  | list item => item.Proper
  | nonNull inner => inner.Proper ∧ inner.isNonNull = false

def depth : TypeRef → Nat
  | named _ => 0
  | list item => item.depth + 1
  | nonNull inner => inner.depth

end TypeRef

/-! ## Parts of definitions -/

/-- Places that say nothing. -/
def Anywhere : Option Position → Prop := fun _ => True

def Directive.Constant (d : Directive) : Prop := d.Proper Anywhere true

def Description.lexeme (d : Description) : Lexeme := .string d.text d.block

def descriptionLexemes (description : Option Description) : List Lexeme :=
  (description.map Description.lexeme).toList

def directiveLexemes (directives : List Directive) : List Lexeme :=
  directives.flatMap Directive.lexemes

def DirectivesFit (directives : List Directive) : Prop :=
  greatest Directive.depth directives ≤ Parser.deepest

def defaultLexemes : Option Value → List Lexeme
  | none => []
  | some value => .punctuator .equals :: value.lexemes

/-- Names with a punctuator between them. -/
def separatedLexemes (separator : Punctuator) (names : List String) : List Lexeme :=
  [Lexeme.punctuator separator].intercalate (names.map fun name => [.name name])

/-- Names after a lexeme that announces them, and nothing if there are none. -/
def listedLexemes (opening : Lexeme) (separator : Punctuator) (names : List String) :
    List Lexeme :=
  if names.isEmpty then [] else opening :: separatedLexemes separator names

/-! ## Members -/

namespace InputDefinition

def lexemes (d : InputDefinition) : List Lexeme :=
  descriptionLexemes d.description ++ .name d.name :: .punctuator .colon ::
    (d.type.lexemes ++ (defaultLexemes d.default ++ directiveLexemes d.directives))

structure Proper (d : InputDefinition) : Prop where
  description : ∀ t ∈ d.description, Formed t.lexeme
  name : IsName d.name
  type : d.type.Proper
  default : ∀ v ∈ d.default, v.Proper true
  directives : ∀ x ∈ d.directives, x.Constant

structure Fits (d : InputDefinition) : Prop where
  type : d.type.depth ≤ Parser.deepest
  default : ∀ v ∈ d.default, v.depth ≤ Parser.deepest
  directives : DirectivesFit d.directives

def unplaced (d : InputDefinition) : InputDefinition :=
  { d with directives := d.directives.map Directive.unplaced }

end InputDefinition

namespace FieldDefinition

def lexemes (d : FieldDefinition) : List Lexeme :=
  descriptionLexemes d.description ++ .name d.name ::
    (enclosed .parenOpen .parenClose (d.arguments.map InputDefinition.lexemes)
      ++ .punctuator .colon :: (d.type.lexemes ++ directiveLexemes d.directives))

structure Proper (d : FieldDefinition) : Prop where
  description : ∀ t ∈ d.description, Formed t.lexeme
  name : IsName d.name
  arguments : ∀ a ∈ d.arguments, a.Proper
  type : d.type.Proper
  directives : ∀ x ∈ d.directives, x.Constant

structure Fits (d : FieldDefinition) : Prop where
  arguments : ∀ a ∈ d.arguments, a.Fits
  type : d.type.depth ≤ Parser.deepest
  directives : DirectivesFit d.directives

def unplaced (d : FieldDefinition) : FieldDefinition :=
  { d with
    arguments := d.arguments.map InputDefinition.unplaced
    directives := d.directives.map Directive.unplaced }

def allDirectives (d : FieldDefinition) : List Directive :=
  d.directives ++ d.arguments.flatMap (·.directives)

end FieldDefinition

namespace EnumValueDefinition

def lexemes (d : EnumValueDefinition) : List Lexeme :=
  descriptionLexemes d.description ++ .name d.name :: directiveLexemes d.directives

structure Proper (d : EnumValueDefinition) : Prop where
  description : ∀ t ∈ d.description, Formed t.lexeme
  name : IsName d.name ∧ d.name ∉ Value.reserved
  directives : ∀ x ∈ d.directives, x.Constant

def Fits (d : EnumValueDefinition) : Prop := DirectivesFit d.directives

def unplaced (d : EnumValueDefinition) : EnumValueDefinition :=
  { d with directives := d.directives.map Directive.unplaced }

end EnumValueDefinition

/-! ## Types -/

namespace TypeBody

def keyword : TypeBody → String
  | scalar => "scalar"
  | object _ _ => "type"
  | interface _ _ => "interface"
  | union _ => "union"
  | enum _ => "enum"
  | inputObject _ => "input"

/-- What stands between the name and the directives. -/
def heading : TypeBody → List Lexeme
  | object interfaces _ | interface interfaces _ =>
    listedLexemes (.name "implements") .ampersand interfaces
  | scalar | union _ | enum _ | inputObject _ => []

/-- What stands after the directives. -/
def contents : TypeBody → List Lexeme
  | scalar => []
  | object _ fields | interface _ fields =>
    enclosed .braceOpen .braceClose (fields.map FieldDefinition.lexemes)
  | union members => listedLexemes (.punctuator .equals) .pipe members
  | enum values => enclosed .braceOpen .braceClose (values.map EnumValueDefinition.lexemes)
  | inputObject fields => enclosed .braceOpen .braceClose (fields.map InputDefinition.lexemes)

def Proper : TypeBody → Prop
  | scalar => True
  | object interfaces fields | interface interfaces fields =>
    (∀ name ∈ interfaces, IsName name) ∧ ∀ field ∈ fields, field.Proper
  | union members => ∀ name ∈ members, IsName name
  | enum values => ∀ value ∈ values, value.Proper
  | inputObject fields => ∀ field ∈ fields, field.Proper

def Fits : TypeBody → Prop
  | scalar | union _ => True
  | object _ fields | interface _ fields => ∀ field ∈ fields, field.Fits
  | enum values => ∀ value ∈ values, value.Fits
  | inputObject fields => ∀ field ∈ fields, field.Fits

def unplaced : TypeBody → TypeBody
  | scalar => scalar
  | object interfaces fields => object interfaces (fields.map FieldDefinition.unplaced)
  | interface interfaces fields => interface interfaces (fields.map FieldDefinition.unplaced)
  | union members => union members
  | enum values => enum (values.map EnumValueDefinition.unplaced)
  | inputObject fields => inputObject (fields.map InputDefinition.unplaced)

/-- The directives of all members. -/
def allDirectives : TypeBody → List Directive
  | scalar | union _ => []
  | object _ fields | interface _ fields => fields.flatMap FieldDefinition.allDirectives
  | enum values => values.flatMap (·.directives)
  | inputObject fields => fields.flatMap (·.directives)

end TypeBody

namespace TypeNode

def lexemes (d : TypeNode) : List Lexeme :=
  descriptionLexemes d.description ++ .name d.body.keyword :: .name d.name ::
    (d.body.heading ++ (directiveLexemes d.directives ++ d.body.contents))

structure Proper (d : TypeNode) : Prop where
  description : ∀ t ∈ d.description, Formed t.lexeme
  name : IsName d.name
  directives : ∀ x ∈ d.directives, x.Constant
  body : d.body.Proper

structure Fits (d : TypeNode) : Prop where
  directives : DirectivesFit d.directives
  body : d.body.Fits

def unplaced (d : TypeNode) : TypeNode :=
  { d with directives := d.directives.map Directive.unplaced, body := d.body.unplaced }

end TypeNode

/-! ## Schemas and directives -/

def RootBinding.lexemes (d : RootBinding) : List Lexeme :=
  [.name d.operation.keyword, .punctuator .colon, .name d.type]

namespace SchemaNode

def lexemes (d : SchemaNode) : List Lexeme :=
  descriptionLexemes d.description ++ .name "schema" :: (directiveLexemes d.directives
    ++ .punctuator .braceOpen :: (d.roots.flatMap RootBinding.lexemes
      ++ [.punctuator .braceClose]))

structure Proper (d : SchemaNode) : Prop where
  description : ∀ t ∈ d.description, Formed t.lexeme
  directives : ∀ x ∈ d.directives, x.Constant
  roots : ∀ binding ∈ d.roots, IsName binding.type

/-- A schema definition without root types is not read. -/
structure Fits (d : SchemaNode) : Prop where
  directives : DirectivesFit d.directives
  roots : d.roots ≠ []

def unplaced (d : SchemaNode) : SchemaNode :=
  { d with directives := d.directives.map Directive.unplaced }

end SchemaNode

namespace DirectiveDefinition

def lexemes (d : DirectiveDefinition) : List Lexeme :=
  descriptionLexemes d.description ++ .name "directive" :: .punctuator .atSign :: .name d.name ::
    (enclosed .parenOpen .parenClose (d.arguments.map InputDefinition.lexemes)
      ++ ((if d.repeatable then [.name "repeatable"] else [])
        ++ .name "on" :: separatedLexemes .pipe d.locations))

structure Proper (d : DirectiveDefinition) : Prop where
  description : ∀ t ∈ d.description, Formed t.lexeme
  name : IsName d.name
  arguments : ∀ a ∈ d.arguments, a.Proper
  ne_nil : d.locations ≠ []
  locations : ∀ location ∈ d.locations, location ∈ Parser.directiveLocations

def Fits (d : DirectiveDefinition) : Prop := ∀ a ∈ d.arguments, a.Fits

def unplaced (d : DirectiveDefinition) : DirectiveDefinition :=
  { d with arguments := d.arguments.map InputDefinition.unplaced }

end DirectiveDefinition

/-! ## Definitions -/

namespace Definition

/-- Whether a definition is one of a type system, and no extension. -/
def IsTypeSystem : Definition → Prop
  | schema _ | directive _ | type _ => True
  | operation _ | fragment _ | schemaExtension _ | typeExtension _ => False

def lexemes : Definition → List Lexeme
  | schema d => d.lexemes
  | directive d => d.lexemes
  | type d => d.lexemes
  | operation _ | fragment _ | schemaExtension _ | typeExtension _ => []

/-- Nothing is asked of operations and fragments. -/
def Proper : Definition → Prop
  | schema d | schemaExtension d => d.Proper
  | directive d => d.Proper
  | type d | typeExtension d => d.Proper
  | operation _ | fragment _ => True

def Fits : Definition → Prop
  | schema d => d.Fits
  | directive d => d.Fits
  | type d => d.Fits
  | operation _ | fragment _ | schemaExtension _ | typeExtension _ => True

def unplaced : Definition → Definition
  | schema d => schema d.unplaced
  | directive d => directive d.unplaced
  | type d => type d.unplaced
  | d => d

/-- The directives of a definition and of all its members. -/
def allDirectives : Definition → List Directive
  | type d => d.directives ++ d.body.allDirectives
  | directive d => d.arguments.flatMap (·.directives)
  | d => d.directives

end Definition

end SdlAssembly.Grammar
