import SdlAssembly.Grammar.Printer.Document
import SdlAssembly.Proofs.Tree.Definitions
import SdlAssembly.Proofs.Tree.Printing

/-!
# Printed definitions

A printed type system spells the lexemes that its definitions are written with.
-/

namespace SdlAssembly.Grammar

open Text Lexer Layout

variable {width : Nat}

/-! ## Parts of definitions -/

theorem TypeRef.Proper.spells {type : TypeRef} (h : type.Proper) :
    Spells width type.print type.lexemes := by
  induction type with
  | named name => exact .name h
  | list item ih =>
      have ho : SpellsClosed width "[" [.punctuator .bracketOpen] := .of_marks rfl
      have hc : IsSeparator width "]" [.punctuator .bracketClose] :=
        ⟨.of_marks rfl, by decide, by decide⟩
      exact ((ho.append (ih h)).append_closed hc).spells
  | nonNull inner ih =>
      have hb : IsSeparator width "!" [.punctuator .bang] := ⟨.of_marks rfl, by decide, by decide⟩
      exact ((ih h.1).append_closed hb).spells

theorem spells_description {description : Option Description}
    (h : ∀ t ∈ description, Formed t.lexeme) :
    SpellsClosed width (printDescription description) (descriptionLexemes description) := by
  cases description with
  | none => exact .of_marks rfl
  | some d => exact (spells_string (h d rfl)).append_closed isSeparator_newline

theorem spells_default {default : Option Value} (h : ∀ v ∈ default, v.Proper true) :
    Spells width (printDefault default) (defaultLexemes default) := by
  cases default with
  | none => exact .empty
  | some v =>
      have he : SpellsClosed width "= " [.punctuator .equals] := .of_marks rfl
      exact he.append (v.spells (h v rfl))

theorem spells_wrapped {text : String} {ls : List Lexeme} (h : Spells width text ls) :
    Spells width (wrap " " text) ls := by
  by_cases ht : text = ""
  · subst ht
    exact h
  · have hb : SpellsClosed width " " [] := .of_marks rfl
    rw [wrap_of_ne ht, String.append_empty]
    exact hb.append h

theorem join_of_ne {sep : String} {parts : List String} (h : ∀ part ∈ parts, part ≠ "") :
    join sep parts = sep.intercalate parts := by
  have hf : parts.filter (fun part => !part.isEmpty) = parts :=
    List.filter_eq_self.mpr fun part hp => by simp [h part hp]
  rw [join, hf]

theorem separatedLexemes_ne_nil {p : Punctuator} {names : List String} (h : names ≠ []) :
    separatedLexemes p names ≠ [] := by
  match names with
  | [name] => simp [separatedLexemes]
  | first :: second :: rest => simp [separatedLexemes, List.intercalate_cons_cons]

/-- Names with separators between them. -/
theorem spells_names {sep : String} {p : Punctuator} {names : List String}
    (hs : IsSeparator width sep [.punctuator p]) (h : ∀ name ∈ names, IsName name) :
    Spells width (sep.intercalate names) (separatedLexemes p names) := by
  have hi : Spells width (sep.intercalate (names.map id)) (separatedLexemes p names) :=
    .intercalate hs fun name hn => .name (h name hn)
  rwa [List.map_id] at hi

theorem spells_separated {sep : String} {p : Punctuator} {names : List String}
    (hs : IsSeparator width sep [.punctuator p]) (h : ∀ name ∈ names, IsName name) :
    Spells width (join sep names) (separatedLexemes p names) := by
  rw [join_of_ne fun name hn => (h name hn).ne_empty]
  exact spells_names hs h

theorem spells_listed {before sep : String} {l : Lexeme} {p : Punctuator} {names : List String}
    (hb : SpellsClosed width before [l]) (hs : IsSeparator width sep [.punctuator p])
    (h : ∀ name ∈ names, IsName name) :
    Spells width (wrap before (join sep names)) (listedLexemes l p names) := by
  have hj := spells_separated hs h
  by_cases hn : names = []
  · subst hn
    exact .empty
  · rw [wrap_of_ne (hj.ne_empty (separatedLexemes_ne_nil hn)), String.append_empty, listedLexemes,
      if_neg (by simpa using hn)]
    exact hb.append hj

/-! ## Members -/

theorem InputDefinition.lexemes_ne_nil (d : InputDefinition) : d.lexemes ≠ [] := by
  simp [InputDefinition.lexemes]

theorem InputDefinition.Proper.spells {d : InputDefinition} (h : d.Proper) :
    Spells width d.print d.lexemes := by
  have htype : Spells width d.type.print _ := h.type.spells
  have hname := spells_labelled h.name htype
  have hlast : Spells width (join " " [printDirectives d.directives])
      (directiveLexemes d.directives ++ []) :=
    .join_cons isSeparator_blank (spells_directives h.directives) .empty
  have hrest := Spells.join_cons isSeparator_blank (spells_default h.default) hlast
  have hall := Spells.join_cons isSeparator_blank hname hrest
  have hd := (spells_description h.description).append hall
  simpa [InputDefinition.print, InputDefinition.lexemes] using hd

theorem spells_inputs {arguments : List InputDefinition} (h : ∀ a ∈ arguments, a.Proper) :
    Spells width (parenthesized (arguments.map InputDefinition.print))
      (enclosed .parenOpen .parenClose (arguments.map InputDefinition.lexemes)) :=
  .parenthesized (fun _ a ha => (h a ha).spells) fun a _ => a.lexemes_ne_nil

theorem apart_parenthesized (items : List String) : Apart (parenthesized items).toList := by
  unfold parenthesized
  split
  · exact apart_wrap (by decide) (by decide)
  · exact apart_wrap (by decide) (by decide)

theorem FieldDefinition.lexemes_ne_nil (d : FieldDefinition) : d.lexemes ≠ [] := by
  simp [FieldDefinition.lexemes]

theorem FieldDefinition.Proper.spells {d : FieldDefinition} (h : d.Proper) :
    Spells width d.print d.lexemes := by
  have hc : IsSeparator width ": " [.punctuator .colon] := ⟨.of_marks rfl, by decide, by decide⟩
  have hargs : Spells width _ _ := spells_inputs h.arguments
  have hhead := ((spells_description h.description).append (.name h.name)).append hargs
    (apart_parenthesized _)
  have htype := (hhead.append_closed hc).append h.type.spells
  have hall := htype.append (spells_wrapped (spells_directives h.directives))
    (apart_wrap (by decide) (by decide))
  simpa [FieldDefinition.print, FieldDefinition.lexemes, directiveLexemes] using hall

theorem EnumValueDefinition.lexemes_ne_nil (d : EnumValueDefinition) : d.lexemes ≠ [] := by
  simp [EnumValueDefinition.lexemes]

theorem EnumValueDefinition.Proper.spells {d : EnumValueDefinition} (h : d.Proper) :
    Spells width d.print d.lexemes := by
  have hlast : Spells width (join " " [printDirectives d.directives])
      (directiveLexemes d.directives ++ []) :=
    .join_cons isSeparator_blank (spells_directives h.directives) .empty
  have hall := Spells.join_cons isSeparator_blank (.name h.name.1) hlast
  have hd := (spells_description h.description).append hall
  simpa [EnumValueDefinition.print, EnumValueDefinition.lexemes] using hd

/-! ## Types -/

theorem isName_keyword (body : TypeBody) : IsName body.keyword := by
  have hk : ∀ text ∈ ["scalar", "type", "interface", "union", "enum", "input"], IsName text := by
    decide
  cases body <;> exact hk _ (by simp [TypeBody.keyword])

theorem spells_interfaces {interfaces : List String} (h : ∀ name ∈ interfaces, IsName name) :
    Spells width (printInterfaces interfaces)
      (listedLexemes (.name "implements") .ampersand interfaces) :=
  spells_listed (.of_marks rfl) ⟨.of_marks rfl, by decide, by decide⟩ h

theorem spells_members {members : List String} (h : ∀ name ∈ members, IsName name) :
    Spells width (wrap "= " (join " | " members))
      (listedLexemes (.punctuator .equals) .pipe members) :=
  spells_listed (.of_marks rfl) ⟨.of_marks rfl, by decide, by decide⟩ h

/-- A type definition after its description. -/
theorem TypeNode.Proper.spells_bare {d : TypeNode} (h : d.Proper) :
    Spells width d.printBare (.name d.body.keyword :: .name d.name ::
      (d.body.heading ++ (directiveLexemes d.directives ++ d.body.contents))) := by
  obtain ⟨description, name, directives, body⟩ := d
  obtain ⟨-, hname, hdirectives, hbody⟩ := h
  have hs : IsSeparator width " " [] := isSeparator_blank
  have hk : Spells width body.keyword [.name body.keyword] := .name (isName_keyword body)
  have hn : Spells width name [.name name] := .name hname
  have hd : Spells width (printDirectives directives) (directiveLexemes directives) :=
    spells_directives hdirectives
  have hnil : Spells width (join " " []) [] := .empty
  cases body with
  | scalar => exact .join_cons hs hk (.join_cons hs hn (.join_cons hs hd hnil))
  | object interfaces fields | interface interfaces fields =>
      have hi : Spells width (printInterfaces interfaces) _ := spells_interfaces hbody.1
      have hf : Spells width (block (fields.map FieldDefinition.print)) _ :=
        .block (fun _ field hm => (hbody.2 field hm).spells) fun field _ => field.lexemes_ne_nil
      have hp := Spells.join_cons hs hk (.join_cons hs hn (.join_cons hs hi (.join_cons hs hd
        (.join_cons hs hf hnil))))
      rw [List.append_nil] at hp
      exact hp
  | union members =>
      have hm : Spells width (wrap "= " (join " | " members)) _ := spells_members hbody
      have hp := Spells.join_cons hs hk (.join_cons hs hn (.join_cons hs hd
        (.join_cons hs hm hnil)))
      rw [List.append_nil] at hp
      exact hp
  | enum values =>
      have hv : Spells width (block (values.map EnumValueDefinition.print)) _ :=
        .block (fun _ value hm => (hbody value hm).spells) fun value _ => value.lexemes_ne_nil
      have hp := Spells.join_cons hs hk (.join_cons hs hn (.join_cons hs hd
        (.join_cons hs hv hnil)))
      rw [List.append_nil] at hp
      exact hp
  | inputObject fields =>
      have hf : Spells width (block (fields.map InputDefinition.print)) _ :=
        .block (fun _ field hm => (hbody field hm).spells) fun field _ => field.lexemes_ne_nil
      have hp := Spells.join_cons hs hk (.join_cons hs hn (.join_cons hs hd
        (.join_cons hs hf hnil)))
      rw [List.append_nil] at hp
      exact hp

/-! ## Schemas and directives -/

theorem isName_operation (kind : OperationKind) : IsName kind.keyword := by
  cases kind <;> decide

theorem RootBinding.spells {d : RootBinding} (h : IsName d.type) :
    Spells width d.print d.lexemes :=
  spells_labelled (isName_operation d.operation) (.name h)

/-- A schema definition or extension after its description. -/
theorem SchemaNode.Proper.spells_enclosed {d : SchemaNode} (h : d.Proper) :
    Spells width d.printBare (.name "schema" :: (directiveLexemes d.directives
      ++ enclosed .braceOpen .braceClose (d.roots.map RootBinding.lexemes))) := by
  have hs : IsSeparator width " " [] := isSeparator_blank
  have hk : Spells width "schema" [.name "schema"] := .name (by decide)
  have hd : Spells width (printDirectives d.directives) (directiveLexemes d.directives) :=
    spells_directives h.directives
  have hb : Spells width (block (d.roots.map RootBinding.print)) _ :=
    .block (fun _ binding hm => RootBinding.spells (h.roots binding hm)) (by simp [RootBinding.lexemes])
  have hnil : Spells width (join " " []) [] := .empty
  have hp := Spells.join_cons hs hk (.join_cons hs hd (.join_cons hs hb hnil))
  rw [List.append_nil] at hp
  exact hp

theorem SchemaNode.Proper.spells_bare {d : SchemaNode} (h : d.Proper) (hr : d.roots ≠ []) :
    Spells width d.printBare (.name "schema" :: (directiveLexemes d.directives
      ++ .punctuator .braceOpen :: (d.roots.flatMap RootBinding.lexemes
        ++ [.punctuator .braceClose]))) := by
  have hp : Spells width d.printBare _ := h.spells_enclosed
  simpa [enclosed, hr, List.flatMap_def] using hp

theorem spells_repeatable (repeatable : Bool) :
    Spells width (if repeatable then " repeatable" else "")
      (if repeatable then [.name "repeatable"] else []) := by
  cases repeatable with
  | false => exact .empty
  | true =>
      have hb : SpellsClosed width " " [] := .of_marks rfl
      have hr : Spells width "repeatable" [.name "repeatable"] := .name (by decide)
      have he : " repeatable" = " " ++ "repeatable" := by decide
      rw [if_pos rfl, if_pos rfl, he]
      exact hb.append hr

theorem apart_repeatable (repeatable : Bool) :
    Apart (if repeatable then " repeatable" else "").toList := by
  cases repeatable <;> decide

theorem isName_location : ∀ name ∈ Parser.directiveLocations, IsName name := by
  decide

theorem DirectiveDefinition.Proper.spells {d : DirectiveDefinition} (h : d.Proper) :
    Spells width d.print d.lexemes := by
  have ho : SpellsClosed width "directive @" [.name "directive", .punctuator .atSign] :=
    .of_marks rfl
  have hon : IsSeparator width " on " [.name "on"] := ⟨.of_marks rfl, by decide, by decide⟩
  have hpipe : IsSeparator width " | " [.punctuator .pipe] :=
    ⟨.of_marks rfl, by decide, by decide⟩
  have hargs : Spells width _ _ := spells_inputs h.arguments
  have hname := ((spells_description h.description).append_closed ho).append (.name h.name)
  have hhead := hname.append hargs (apart_parenthesized _)
  have hrep := hhead.append (spells_repeatable d.repeatable) (apart_repeatable d.repeatable)
  have hlocs := spells_separated hpipe fun name hn => isName_location name (h.locations name hn)
  have hall := (hrep.append_closed hon).append hlocs
  simpa only [DirectiveDefinition.print, DirectiveDefinition.lexemes, List.append_assoc,
    List.cons_append, List.nil_append] using hall

/-! ## Definitions -/

theorem Definition.spells {d : Definition} (ht : d.IsTypeSystem) (h : d.Proper) (hf : d.Fits) :
    Spells width d.print d.lexemes := by
  cases d with
  | schema d =>
      have hbare : Spells width d.printBare _ := h.spells_bare hf.roots
      exact (spells_description h.description).append hbare
  | directive d => exact DirectiveDefinition.Proper.spells h
  | type d => exact (spells_description h.description).append h.spells_bare
  | operation d | fragment d | schemaExtension d | typeExtension d => exact ht.elim

theorem spells_definitions {definitions : List Definition}
    (ht : ∀ d ∈ definitions, d.IsTypeSystem) (h : ∀ d ∈ definitions, d.Proper ∧ d.Fits) :
    Spells width (printDefinitions definitions) (definitions.flatMap Definition.lexemes) :=
  .join ⟨.of_marks rfl, by decide, by decide⟩ fun d hd =>
    Definition.spells (ht d hd) (h d hd).1 (h d hd).2

end SdlAssembly.Grammar
