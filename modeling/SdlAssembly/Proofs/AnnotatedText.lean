import SdlAssembly.Proofs.Metadata
import SdlAssembly.Proofs.Parsing.WrittenDocuments
import SdlAssembly.Proofs.Schema.Printing
import SdlAssembly.Proofs.Tree.Placing

/-!
# Texts of annotated schemas

The printed metadata of a schema is read back from its text: every type definition carries the
directives of its metadata after those that it is printed with, and nothing else carries any.
-/

namespace SdlAssembly.Annotation

open Grammar

/-! ## Places -/

@[simp] theorem stringArgument?_unplaced (d : Directive) (argument : String) :
    stringArgument? d.unplaced argument = stringArgument? d argument := by
  simp [stringArgument?, argument?, Directive.unplaced, Argument.unplaced, List.find?_map,
    Function.comp_def]

@[simp] theorem directiveValue?_unplaced (directives : List Directive) (name argument : String) :
    directiveValue? (directives.map Directive.unplaced) name argument =
      directiveValue? directives name argument := by
  have hname : (fun d : Directive => d.name == name) ∘ Directive.unplaced =
      fun d => d.name == name := rfl
  have hargument : (stringArgument? · argument) ∘ Directive.unplaced =
      (stringArgument? · argument) := funext fun d => stringArgument?_unplaced d argument
  rw [directiveValue?, firstDirective?, List.find?_map, hname, Option.bind_map, hargument]
  rfl

@[simp] theorem keyFields?_unplaced (d : Directive) : keyFields? d.unplaced = keyFields? d := by
  unfold keyFields? Directive.unplaced
  match d.arguments with
  | [] => rfl
  | [argument] => rfl
  | first :: second :: rest => rfl

end SdlAssembly.Annotation

namespace SdlAssembly.Annotated

open Grammar Text Lexer Annotation Schemas

/-! ## Annotations -/

/-- The directives that metadata is written with. -/
def annotations : List String := [runtimeTypeDirective, serializationTypeDirective, keyDirective]

def isMetadata (d : Directive) : Bool := annotations.contains d.name

theorem not_isMetadata_of_mark {d : Directive} (h : d.name ∈ Schemas.marks) : isMetadata d = false := by
  have hall : ∀ name ∈ Schemas.marks, annotations.contains name = false := by decide
  exact hall d.name h

/-- The directives of metadata have one text each. -/
theorem exists_stringDirective {m : Metadata} {d : Directive} (h : d ∈ m.directives) :
    ∃ name ∈ annotations, ∃ argument text, IsName argument ∧ d = stringDirective name argument text := by
  have hname : IsName nameArgument := by decide
  have hfields : IsName keyArgument := by decide
  rcases List.mem_append.mp h with h | h
  · obtain ⟨info, hi⟩ : ∃ info, d ∈ leafDirectives info := by
      cases hl : m.leafType with
      | none =>
          rw [hl] at h
          cases h
      | some info =>
          rw [hl] at h
          exact ⟨info, h⟩
    rcases List.mem_append.mp hi with hi | hi
    · obtain ⟨text, -, rfl⟩ := Option.map_eq_some_iff.mp (Option.mem_toList.mp hi)
      exact ⟨_, by simp [annotations], _, text, hname, rfl⟩
    · obtain ⟨text, -, rfl⟩ := Option.map_eq_some_iff.mp (Option.mem_toList.mp hi)
      exact ⟨_, by simp [annotations], _, text, hname, rfl⟩
  · obtain ⟨key, -, rfl⟩ := Option.map_eq_some_iff.mp (Option.mem_toList.mp h)
    exact ⟨_, by simp [annotations], _, _, hfields, rfl⟩

/-- The directives of metadata can be written. -/
theorem constant_directives {m : Metadata} : ∀ d ∈ m.directives, d.Constant := by
  intro d h
  obtain ⟨name, hn, argument, text, ha, rfl⟩ := exists_stringDirective h
  have hnames : ∀ name ∈ annotations, IsName name := by decide
  exact constant_textMark (hnames name hn) ha text

theorem depth_directives {m : Metadata} : ∀ d ∈ m.directives, d.depth = 0 := by
  intro d h
  obtain ⟨name, -, argument, text, -, rfl⟩ := exists_stringDirective h
  rfl

@[simp] theorem unplaced_directives (m : Metadata) :
    m.directives.map Directive.unplaced = m.directives := by
  refine (List.map_congr_left fun d h => ?_).trans (List.map_id _)
  obtain ⟨name, -, argument, text, -, rfl⟩ := exists_stringDirective h
  rfl

theorem filter_directives (m : Metadata) : m.directives.filter isMetadata = m.directives := by
  refine List.filter_eq_self.mpr fun d h => ?_
  obtain ⟨name, hn, argument, text, -, rfl⟩ := exists_stringDirective h
  exact List.contains_iff_mem.mpr hn

/-! ## Reading metadata -/

section Reading

variable (m : Metadata)

theorem directiveValue?_runtimeType :
    directiveValue? m.directives runtimeTypeDirective = m.leafType.bind (·.runtimeType) := by
  obtain ⟨leafType, entityKey⟩ := m
  cases leafType with
  | none => cases entityKey <;> rfl
  | some info =>
      obtain ⟨typeName, runtimeType, serializationType⟩ := info
      cases runtimeType <;> cases serializationType <;> cases entityKey <;> rfl

theorem directiveValue?_serializationType :
    directiveValue? m.directives serializationTypeDirective =
      m.leafType.bind (·.serializationType) := by
  obtain ⟨leafType, entityKey⟩ := m
  cases leafType with
  | none => cases entityKey <;> rfl
  | some info =>
      obtain ⟨typeName, runtimeType, serializationType⟩ := info
      cases runtimeType <;> cases serializationType <;> cases entityKey <;> rfl

theorem filter_isKey : m.directives.filter isKey = (m.entityKey.map keyDirectiveOf).toList := by
  obtain ⟨leafType, entityKey⟩ := m
  cases leafType with
  | none => cases entityKey <;> rfl
  | some info =>
      obtain ⟨typeName, runtimeType, serializationType⟩ := info
      cases runtimeType <;> cases serializationType <;> cases entityKey <;> rfl

end Reading

/-! ## Definitions with metadata -/

/-- A type definition says what is known of its type, and nothing else. -/
structure Carries (m : Metadata) (node : TypeNode) : Prop where
  runtimeType : directiveValue? node.directives runtimeTypeDirective =
    m.leafType.bind (·.runtimeType)
  serializationType : directiveValue? node.directives serializationTypeDirective =
    m.leafType.bind (·.serializationType)
  keys : (node.directives.filter isKey).map keyFields? =
    (m.entityKey.map fun key => some (formatSelectionSet key)).toList
  annotations : ((node.directives ++ node.body.allDirectives).filter isMetadata).map
    Directive.unplaced = m.directives

theorem carries_unplaced {m : Metadata} {node : TypeNode} :
    Carries m node.unplaced ↔ Carries m node := by
  have hkeys : (node.unplaced.directives.filter isKey).map keyFields? =
      (node.directives.filter isKey).map keyFields? := by
    have hkey : isKey ∘ Directive.unplaced = isKey := rfl
    simp [TypeNode.unplaced, List.filter_map, hkey, Function.comp_def]
  have hall : ((node.unplaced.directives ++ node.unplaced.body.allDirectives).filter
      isMetadata).map Directive.unplaced =
      ((node.directives ++ node.body.allDirectives).filter isMetadata).map
        Directive.unplaced := by
    have hmetadata : isMetadata ∘ Directive.unplaced = isMetadata := rfl
    simp [TypeNode.unplaced, List.filter_map, hmetadata, Function.comp_def]
  constructor
  · rintro ⟨hr, hs, hk, ha⟩
    exact ⟨by simpa [TypeNode.unplaced] using hr, by simpa [TypeNode.unplaced] using hs,
      hkeys ▸ hk, hall ▸ ha⟩
  · rintro ⟨hr, hs, hk, ha⟩
    exact ⟨by simpa [TypeNode.unplaced] using hr, by simpa [TypeNode.unplaced] using hs,
      hkeys.symm ▸ hk, hall.symm ▸ ha⟩

/-- A definition of a type system says what is known of its type, if it defines one. -/
def AnnotatedSchema.Describes (annotated : AnnotatedSchema) : Definition → Prop
  | .type node => Carries (annotated.metadataOf node.name) node
  | d => d.IsTypeSystem ∧ d.allDirectives.filter isMetadata = []

section Marked

variable {directives : List Directive}

theorem filter_marked (h : Marked directives) : directives.filter isMetadata = [] :=
  List.filter_eq_nil_iff.mpr fun d hd => by simp [not_isMetadata_of_mark (h d hd)]

/-- What is printed with a type is none of its metadata. -/
theorem directiveValue?_marked (h : Marked directives) {name : String} (hn : name ∈ annotations)
    (more : List Directive) (argument : String) :
    directiveValue? (directives ++ more) name argument = directiveValue? more name argument := by
  have hnone : directives.find? (fun d => d.name == name) = none := by
    refine List.find?_eq_none.mpr fun d hd he => ?_
    have hna := not_isMetadata_of_mark (h d hd)
    rw [isMetadata, beq_iff_eq.mp he, List.contains_iff_mem.mpr hn] at hna
    cases hna
  rw [directiveValue?, firstDirective?, List.find?_append, hnone, Option.none_or]
  rfl

theorem filter_isKey_marked (h : Marked directives) : directives.filter isKey = [] := by
  refine List.filter_eq_nil_iff.mpr fun d hd he => ?_
  have hna := not_isMetadata_of_mark (h d hd)
  rw [isMetadata, beq_iff_eq.mp he] at hna
  cases hna

end Marked

theorem carries_append {m : Metadata} {node : TypeNode}
    (h : Marked (node.directives ++ node.body.allDirectives)) :
    Carries m { node with directives := node.directives ++ m.directives } := by
  have hd : Marked node.directives := fun d hd => h d (List.mem_append_left _ hd)
  have hb : Marked node.body.allDirectives := fun d hd => h d (List.mem_append_right _ hd)
  constructor
  · rw [directiveValue?_marked hd (by simp [annotations])]
    exact directiveValue?_runtimeType m
  · rw [directiveValue?_marked hd (by simp [annotations])]
    exact directiveValue?_serializationType m
  · rw [List.filter_append, filter_isKey_marked hd, filter_isKey]
    cases m.entityKey <;> rfl
  · simp [filter_marked hd, filter_marked hb, filter_directives]

/-- What has standard directives only has them wherever its directives stand. -/
theorem marked_of_unplaced {d d' : Definition} (ht : d.IsTypeSystem) (ht' : d'.IsTypeSystem)
    (hu : d'.unplaced = d.unplaced) (h : Marked d.allDirectives) : Marked d'.allDirectives := by
  have hall := congrArg Definition.allDirectives hu
  rw [Definition.allDirectives_unplaced ht, Definition.allDirectives_unplaced ht'] at hall
  intro x hx
  have hx : x.unplaced ∈ d.allDirectives.map Directive.unplaced :=
    hall ▸ List.mem_map_of_mem hx
  obtain ⟨y, hy, he⟩ := List.mem_map.mp hx
  have hname : y.unplaced.name = x.unplaced.name := congrArg Directive.name he
  have hname : y.name = x.name := hname
  exact hname ▸ h y hy

/-! ## Appending -/

namespace AnnotatedSchema.Holds

variable {annotated : AnnotatedSchema} {schema : Schema} {Kind : SelectionSet → Prop}
  {d : Definition}

theorem unplaced_append (h : annotated.Holds schema Kind) (d : Definition) :
    (appendDirectives annotated.directives d).unplaced =
      appendDirectives annotated.directives d.unplaced := by
  cases d with
  | type node =>
      have hd := h.directives node.name
      simp [appendDirectives, Definition.unplaced, TypeNode.unplaced, hd]
  | _ => rfl

theorem map_unplaced_append (h : annotated.Holds schema Kind) (ds : List Definition) :
    (ds.map (appendDirectives annotated.directives)).map Definition.unplaced =
      (ds.map Definition.unplaced).map (appendDirectives annotated.directives) := by
  simp [h.unplaced_append, Function.comp_def]

/-- A printed definition can still be written with metadata. -/
theorem proper_append (h : annotated.Holds schema Kind) (hd : IsPrinted d) (hf : d.Fits) :
    (appendDirectives annotated.directives d).IsTypeSystem
      ∧ (appendDirectives annotated.directives d).Proper
      ∧ (appendDirectives annotated.directives d).Fits := by
  obtain ⟨ht, hp, -⟩ := hd
  cases d with
  | type node =>
      rw [appendDirectives, h.directives]
      refine ⟨trivial, ⟨hp.description, hp.name, ?_, hp.body⟩, ?_, hf.body⟩
      · exact List.forall_mem_append.mpr ⟨hp.directives, constant_directives⟩
      · refine greatest_le.mpr (List.forall_mem_append.mpr ⟨greatest_le.mp hf.directives, ?_⟩)
        intro x hx
        rw [depth_directives x hx]
        exact Nat.zero_le _
  | schema node | directive node => exact ⟨ht, hp, hf⟩
  | _ => exact ht.elim

/-- A definition that is read as a printed one with metadata describes its type. -/
theorem describes (h : annotated.Holds schema Kind) {d' : Definition} (hd : IsPrinted d)
    (hu : d'.unplaced = (appendDirectives annotated.directives d).unplaced) :
    annotated.Describes d' := by
  obtain ⟨ht, -, hm⟩ := hd
  cases d with
  | type node =>
      rw [appendDirectives, h.directives] at hu
      cases d' with
      | type node' =>
          have hu : node'.unplaced = TypeNode.unplaced { node with
            directives := node.directives ++ (annotated.metadataOf node.name).directives } :=
            Definition.type.inj hu
          have hname : node'.unplaced.name = node.name := hu ▸ rfl
          have hc := carries_unplaced.mpr (carries_append (m := annotated.metadataOf node.name) hm)
          rw [← hu, ← hname] at hc
          exact carries_unplaced.mp hc
      | _ => cases hu
  | schema node =>
      cases d' with
      | schema node' => exact ⟨trivial, filter_marked (marked_of_unplaced ht trivial hu hm)⟩
      | _ => cases hu
  | directive node =>
      cases d' with
      | directive node' => exact ⟨trivial, filter_marked (marked_of_unplaced ht trivial hu hm)⟩
      | _ => cases hu
  | _ => exact ht.elim

end AnnotatedSchema.Holds

/-! ## Texts -/

section Texts

variable {annotated : AnnotatedSchema} {schema : Schema} {Kind : SelectionSet → Prop}
  {text : String}

/-- The text of a legible schema with metadata is that of its printed definitions, which have the
directives of their metadata appended. -/
theorem print_eq_ok (h : annotated.Holds schema Kind) (hl : schema.Legible)
    (hp : annotated.print = .ok text) :
    schema.definitions ≠ [] ∧ (∀ d ∈ schema.definitions, d.Fits)
      ∧ text = printDefinitions (schema.definitions.map (appendDirectives annotated.directives)) := by
  obtain ⟨bare, hb, hp⟩ := Except.bind_eq_ok hp
  have hb := Except.mapError_eq_ok hb
  obtain ⟨document, hr, hp⟩ := Except.bind_eq_ok (Except.mapError_eq_ok hp)
  cases hp
  rw [h.schema] at hb
  have hds := isPrinted_definitions hl
  have hs : Spells 0 bare _ := spells_printSchema hl hb
  have hlexemes : lexemes (Source.mk unnamedSource bare).body.toList = _ := hs.lexemes_eq
  have hread := parseDocument_written false (fun d hd => (hds d hd).1)
    (fun d hd => (hds d hd).2.1) hlexemes
  rw [hr] at hread
  obtain ⟨hu, hne, hf⟩ := hread
  refine ⟨hne, hf, printDefinitions_unplaced ?_⟩
  rw [h.map_unplaced_append, h.map_unplaced_append, hu]

/-- The text of an annotated schema is read as its printed definitions with their metadata. -/
theorem parseDocument_eq_ok (h : annotated.Holds schema Kind) (hl : schema.Legible)
    (hp : annotated.print = .ok text) (name : String) (located : Bool) :
    ∃ document, parseDocument ⟨name, text⟩ located = .ok document
      ∧ document.definitions.map Definition.unplaced =
        (schema.definitions.map (appendDirectives annotated.directives)).map
          Definition.unplaced := by
  obtain ⟨hne, hf, rfl⟩ := print_eq_ok h hl hp
  have hproper : ∀ d ∈ schema.definitions.map (appendDirectives annotated.directives),
      d.IsTypeSystem ∧ d.Proper ∧ d.Fits := by
    intro d hd
    obtain ⟨d, hm, rfl⟩ := List.mem_map.mp hd
    exact h.proper_append (isPrinted_definitions hl d hm) (hf d hm)
  exact parseDocument_of_spells
    (Parser.readsItems_definition (fun d hd => (hproper d hd).1) fun d hd => (hproper d hd).2.1)
    (spells_definitions (fun d hd => (hproper d hd).1) fun d hd => (hproper d hd).2)
    (by simpa using hne) (fun d hd => (hproper d hd).2.2) name located

/-- The text of an annotated schema is a document that describes its types. -/
theorem parseDocument_print (h : annotated.Holds schema Kind) (hl : schema.Legible)
    (hp : annotated.print = .ok text) (name : String) (located : Bool) :
    ∃ document, parseDocument ⟨name, text⟩ located = .ok document
      ∧ ∀ d ∈ document.definitions, annotated.Describes d := by
  obtain ⟨document, hr, hu⟩ := parseDocument_eq_ok h hl hp name located
  refine ⟨document, hr, fun d hd => ?_⟩
  have hd := hu ▸ List.mem_map_of_mem (f := Definition.unplaced) hd
  simp only [List.map_map, List.mem_map] at hd
  obtain ⟨d', hd', hu⟩ := hd
  exact h.describes (isPrinted_definitions hl d' hd') hu.symm

end Texts

end SdlAssembly.Annotated
