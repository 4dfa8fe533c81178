import SdlAssembly.Proofs.Tree.DefinitionPrinting

/-!
# The grammar of extensions

An extension is written like a definition after a word of its own. It has no description, and it adds
a directive or something in its body. A printed document of definitions and extensions spells the
lexemes that they are written with.
-/

namespace SdlAssembly.Grammar

open Text Lexer Layout

/-! ## Extensions -/

namespace TypeNode

/-- An extension of a type that is read: it adds something. -/
structure Extends (d : TypeNode) : Prop extends d.Fits where
  adds : (d.directives.isEmpty && Parser.bodyIsEmpty d.body) = false

/-- Without a description, a type starts with the word for its kind. -/
theorem lexemes_undescribed {d : TypeNode} (h : d.description = none) :
    d.lexemes = .name d.body.keyword :: .name d.name ::
      (d.body.heading ++ (directiveLexemes d.directives ++ d.body.contents)) :=
  congrArg (descriptionLexemes · ++ _) h

end TypeNode

namespace SchemaNode

/-- The lexemes of an extension after the word for it. -/
def extensionLexemes (d : SchemaNode) : List Lexeme :=
  .name "schema" :: (directiveLexemes d.directives
    ++ enclosed .braceOpen .braceClose (d.roots.map RootBinding.lexemes))

/-- An extension of a schema that is read: it adds something. -/
structure Extends (d : SchemaNode) : Prop where
  directives : DirectivesFit d.directives
  adds : (d.directives.isEmpty && d.roots.isEmpty) = false

end SchemaNode

/-! ## Definitions and extensions -/

namespace Definition

/-- Whether a definition is one of a type system, extensions among them. -/
def IsSdl : Definition → Prop
  | operation _ | fragment _ => False
  | schema _ | directive _ | type _ | schemaExtension _ | typeExtension _ => True

instance : DecidablePred IsSdl
  | operation _ | fragment _ => isFalse id
  | schema _ | directive _ | type _ | schemaExtension _ | typeExtension _ => isTrue trivial

/-- An extension has no description. -/
def Undescribed : Definition → Prop
  | schemaExtension d => d.description = none
  | typeExtension d => d.description = none
  | operation _ | fragment _ | schema _ | directive _ | type _ => True

/-- The lexemes of definitions and extensions. -/
def sdlLexemes : Definition → List Lexeme
  | schemaExtension d => .name "extend" :: d.extensionLexemes
  | typeExtension d => .name "extend" :: d.lexemes
  | d => d.lexemes

def SdlFits : Definition → Prop
  | schemaExtension d => d.Extends
  | typeExtension d => d.Extends
  | d => d.Fits

/-- The definition or extension without the places of its directives. -/
def withoutPlaces : Definition → Definition
  | schemaExtension d => schemaExtension d.unplaced
  | typeExtension d => typeExtension d.unplaced
  | d => d.unplaced

/-- A definition or extension that can be written and is read from its lexemes. -/
structure Readable (d : Definition) : Prop where
  proper : d.Proper
  undescribed : d.Undescribed
  fits : d.SdlFits

theorem withoutPlaces_of_unplaced {d d' : Definition} (ht : d.IsTypeSystem)
    (h : d'.unplaced = d.unplaced) : d'.withoutPlaces = d.withoutPlaces := by
  cases d with
  | schema d | directive d | type d => cases d' <;> first | exact h | cases h
  | operation d | fragment d | schemaExtension d | typeExtension d => exact ht.elim

/-! ## Printing -/

variable {width : Nat}

theorem Readable.spells {d : Definition} (hs : d.IsSdl) (h : d.Readable) :
    Spells width d.print d.sdlLexemes := by
  obtain ⟨hp, hu, hf⟩ := h
  have he : SpellsClosed width "extend " [.name "extend"] := .of_marks rfl
  cases d with
  | schema d | directive d | type d => exact Definition.spells trivial hp hf
  | schemaExtension d => exact he.append (SchemaNode.Proper.spells_enclosed hp)
  | typeExtension d =>
      have hbare : Spells width d.printBare _ := TypeNode.Proper.spells_bare hp
      rw [sdlLexemes, TypeNode.lexemes_undescribed hu]
      exact he.append hbare
  | operation d | fragment d => exact hs.elim

end Definition

theorem spells_sdl {width : Nat} {definitions : List Definition}
    (hs : ∀ d ∈ definitions, d.IsSdl) (h : ∀ d ∈ definitions, d.Readable) :
    Spells width (printDefinitions definitions) (definitions.flatMap Definition.sdlLexemes) :=
  .join ⟨.of_marks rfl, by decide, by decide⟩ fun d hd => (h d hd).spells (hs d hd)

end SdlAssembly.Grammar
