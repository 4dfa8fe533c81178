import SdlAssembly.Proofs.Parsing.WrittenDocuments
import SdlAssembly.Proofs.Tree.Extensions

/-!
# Reading written extensions

Definitions and extensions are read back from their lexemes, apart from the places of their
directives. An extension is read if it adds something.
-/

namespace SdlAssembly.Grammar.Parser

open Text Lexer

variable {next : Lexeme}

/-! ## Parts -/

/-- A result that is refused if it fails a test. -/
theorem Reads.refuse {α β : Type} {p : Parser α} {ls : List Lexeme} {fits : Prop} {Q : α → Prop}
    {R : β → Prop} {bad : α → Bool} {g : α → β} {b : Bool} (h : Reads p ls next fits Q)
    (hb : ∀ a, Q a → bad a = b) (hR : ∀ a, Q a → R (g a)) :
    Reads (p >>= fun a => if bad a then (do unexpected (← Parser.current)) else Pure.pure (g a)) ls
      next (fits ∧ b = false) R := by
  rw [← List.append_nil ls]
  refine h.bind fun a ha => ?_
  rw [hb a ha]
  cases b with
  | true => exact .current fun t _ => .failAt (by simp)
  | false => exact (Reads.pure (hR a ha)).mono (by simp) fun _ h => h

theorem isEmpty_of_unplaced {directives directives' : List Directive}
    (h : directives'.map Directive.unplaced = directives.map Directive.unplaced) :
    directives'.isEmpty = directives.isEmpty := by
  have hempty := congrArg List.isEmpty h
  rwa [List.isEmpty_map, List.isEmpty_map] at hempty

theorem bodyIsEmpty_unplaced (body : TypeBody) : bodyIsEmpty body.unplaced = bodyIsEmpty body := by
  cases body <;> simp [TypeBody.unplaced, bodyIsEmpty]

theorem bodyIsEmpty_of_unplaced {body body' : TypeBody} (h : body'.unplaced = body.unplaced) :
    bodyIsEmpty body' = bodyIsEmpty body := by
  rw [← bodyIsEmpty_unplaced, h, bodyIsEmpty_unplaced]

theorem readsItems_rootBinding (roots : List RootBinding) :
    ReadsItems rootBinding RootBinding.lexemes (fun _ => True) id (∃ text, · = .name text)
      (.punctuator .braceClose) roots :=
  ⟨fun d _ _ _ => reads_rootBinding d, fun _ _ => ⟨_, _, rfl, _, rfl⟩, by simp⟩

/-! ## Extensions -/

theorem reads_typeExtension {d : TypeNode} (h : d.Proper) (hu : d.description = none)
    (hn : EndsDefinition next) :
    Reads (typeExtension (kindOf d.body)) (.name "extend" :: d.lexemes) next d.Extends
      fun a => a.unplaced = d.unplaced := by
  have hfits : (DirectivesFit d.directives ∧ d.body.Fits)
      ∧ (d.directives.isEmpty && bodyIsEmpty d.body) = false ↔ d.Extends :=
    ⟨fun h => ⟨⟨h.1.1, h.1.2⟩, h.2⟩, fun h => ⟨⟨h.directives, h.body⟩, h.adds⟩⟩
  rw [TypeNode.lexemes_undescribed hu]
  refine reads_discard.step fun _ _ => reads_discard.step fun _ _ => ?_
  refine reads_name.step fun name hname => ?_
  refine Reads.mono ((reads_typeBody h.directives h.body hn).refuse (fun r hr => ?_)
    fun r hr => ?_) hfits fun _ h => h
  · rw [isEmpty_of_unplaced hr.1, bodyIsEmpty_of_unplaced hr.2]
  · rw [TypeNode.unplaced, TypeNode.unplaced, hname, hu, hr.1, hr.2]

theorem reads_schemaExtension {d : SchemaNode} (h : d.Proper) (hu : d.description = none)
    (hn : EndsDefinition next) :
    Reads schemaExtension (.name "extend" :: d.extensionLexemes) next d.Extends
      fun a => a.unplaced = d.unplaced := by
  have hfits : DirectivesFit d.directives ∧ (∀ binding ∈ d.roots, True)
      ∧ (d.directives.isEmpty && d.roots.isEmpty) = false ↔ d.Extends :=
    ⟨fun h => ⟨h.1, h.2.2⟩, fun h => ⟨h.directives, by simp, h.adds⟩⟩
  refine (reads_keyword "extend").step fun _ _ => (reads_keyword "schema").step fun _ _ => ?_
  refine Reads.mono ((reads_constantDirectives h.directives ?_ ?_).bind fun ds hs => ?_) hfits
    fun _ h => h
  · exact headD_enclosed (by simp) hn.ne
  · exact headD_enclosed (by simp) hn.ne
  refine (reads_optionalMany (readsItems_rootBinding d.roots) hn.ne).refuse (fun roots hr => ?_)
    fun roots hr => ?_
  · rw [List.map_id, List.map_id] at hr
    rw [isEmpty_of_unplaced hs, hr]
  · rw [List.map_id, List.map_id] at hr
    rw [SchemaNode.unplaced, SchemaNode.unplaced, hs, hu, hr]

/-! ## Definitions and extensions -/

/-- The word that starts an extension is not that of a definition. -/
theorem reads_extended {ls : List Lexeme} {fits : Prop} {R : Definition → Prop}
    (h : Reads extension (.name "extend" :: ls) next fits R) :
    Reads definition (.name "extend" :: ls) next fits R := by
  refine .current fun t ht => ?_
  have ht : t.lexeme = .name "extend" := ht
  have hb : (t.lexeme == .punctuator .braceOpen) = false := by simp [ht]
  have hs : isDescription t = false := by simp [isDescription, ht]
  have hby : definitionBy t t = extension := by
    unfold definitionBy
    rw [ht, hs]
    rfl
  rw [hb, hs, hby]
  exact h

theorem reads_sdl {d : Definition} (hs : d.IsSdl) (h : d.Proper) (hu : d.Undescribed)
    (hn : EndsDefinition next) :
    Reads definition d.sdlLexemes next d.SdlFits fun a => a.withoutPlaces = d.withoutPlaces := by
  have hdefinition (ht : d.IsTypeSystem) :
      Reads definition d.lexemes next d.Fits fun a => a.withoutPlaces = d.withoutPlaces :=
    (reads_definition ht h hn).mono .rfl fun a => Definition.withoutPlaces_of_unplaced ht
  cases d with
  | schema d | directive d | type d => exact hdefinition trivial
  | schemaExtension d =>
      refine reads_extended (reads_upcoming fun t ht => ?_)
      rw [ht]
      exact (reads_schemaExtension h hu hn).map fun a ha => by simp [Definition.withoutPlaces, ha]
  | typeExtension d =>
      have hread : Reads (Definition.typeExtension <$> typeExtension (kindOf d.body))
          (.name "extend" :: d.lexemes) next d.Extends fun a =>
            a.withoutPlaces = (Definition.typeExtension d).withoutPlaces :=
        (reads_typeExtension h hu hn).map fun a ha => by simp [Definition.withoutPlaces, ha]
      rw [Definition.sdlLexemes]
      rw [TypeNode.lexemes_undescribed hu] at hread ⊢
      refine reads_extended (reads_upcoming fun t ht => ?_)
      rw [ht]
      obtain ⟨description, name, directives, body⟩ := d
      cases body <;> exact hread
  | operation d | fragment d => exact hs.elim

theorem sdl_first {d : Definition} (hs : d.IsSdl) :
    ∃ l rest, d.sdlLexemes = l :: rest ∧ BeginsDefinition l := by
  have hdefinition (ht : d.IsTypeSystem) :
      ∃ l rest, d.lexemes = l :: rest ∧ BeginsDefinition l := definition_first ht
  cases d with
  | schema d | directive d | type d => exact hdefinition trivial
  | schemaExtension d | typeExtension d =>
      exact ⟨_, _, rfl, .inl ⟨"extend", by simp [definitionWords], rfl⟩⟩
  | operation d | fragment d => exact hs.elim

/-- Definitions and extensions are read one by one. -/
theorem readsItems_sdl {ds : List Definition} (hs : ∀ d ∈ ds, d.IsSdl)
    (h : ∀ d ∈ ds, d.Readable) :
    ReadsItems definition Definition.sdlLexemes Definition.SdlFits Definition.withoutPlaces
      BeginsDefinition .endOfText ds :=
  ⟨fun d hd _ hn => reads_sdl (hs d hd) (h d hd).proper (h d hd).undescribed hn,
    fun d hd => sdl_first (hs d hd), fun hb => hb.ne_endOfText rfl⟩

end SdlAssembly.Grammar.Parser

namespace SdlAssembly.Grammar

open Text Lexer

/-- Definitions and extensions that are printed are read back from their text. -/
theorem parseDocument_printDefinitions {ds : List Definition} (hs : ∀ d ∈ ds, d.IsSdl)
    (h : ∀ d ∈ ds, d.Readable) (hne : ds ≠ []) (name : String) (located : Bool) :
    ∃ document, parseDocument ⟨name, printDefinitions ds⟩ located = .ok document
      ∧ document.definitions.map Definition.withoutPlaces =
        ds.map Definition.withoutPlaces :=
  parseDocument_of_spells (Parser.readsItems_sdl hs h) (spells_sdl hs h) hne
    (fun d hd => (h d hd).fits) name located

end SdlAssembly.Grammar
