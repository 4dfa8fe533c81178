import SdlAssembly.Proofs.Composing
import SdlAssembly.Proofs.Schema.Defaults
import SdlAssembly.Proofs.Schema.Rooting

/-!
# Schemas that can be printed with their metadata

The text of a schema is read again to add the metadata. It is a document if there is something to
print and nothing in it nests deeper than a parser reads; the defaults of a schema may, since a
default holds those of the fields that it leaves out, inside lists that its literal does not write.
-/

namespace SdlAssembly.Schemas

open Grammar

/-! ## What a document needs -/

/-- A print of the schema has a definition, and a schema definition with a description has a root
type. -/
structure Schema.SaysSomething (schema : Schema) : Prop where
  shown : schema.saysNothing = false ∨ schema.shownDirectives ≠ [] ∨ schema.shownTypes ≠ []
  rooted : schema.description.isSome → ∃ operation, (schema.root? operation).isSome

/-- What is printed of the schema nests no deeper than a parser reads. -/
structure Schema.Shallow (schema : Schema) : Prop where
  fields : ∀ t ∈ schema.shownTypes, ∀ field ∈ t.fields, field.type.depth ≤ Parser.deepest
  inputs : ∀ input ∈ schema.inputs, input.type.depth ≤ Parser.deepest
  defaults : ∀ input ∈ schema.inputs, ∀ literal, writeDefault schema input = .ok (some literal) →
    literal.depth ≤ Parser.deepest

/-! ## Literals -/

mutual

theorem depth_spelling : ∀ v : Value, (spelling v).depth = v.depth
  | .list items => by rw [spelling, Value.depth, Value.depth, depth_itemSpellings]
  | .object fields => by rw [spelling, Value.depth, Value.depth, depth_fieldSpellings]
  | .float text => by
      rw [spelling, numberOf]
      split <;> rfl
  | .int _ | .variable _ | .string _ _ | .boolean _ | .null | .enum _ => rfl

theorem depth_itemSpellings : ∀ items : List Value,
    Value.itemsDepth (itemSpellings items) = Value.itemsDepth items
  | [] => rfl
  | item :: rest => by
      rw [itemSpellings, Value.itemsDepth, Value.itemsDepth, depth_spelling item,
        depth_itemSpellings rest]

theorem depth_fieldSpellings : ∀ fields : List (String × Value),
    Value.fieldsDepth (fieldSpellings fields) = Value.fieldsDepth fields
  | [] => rfl
  | (key, value) :: rest => by
      rw [fieldSpellings, Value.fieldsDepth, Value.fieldsDepth, depth_spelling value,
        depth_fieldSpellings rest]

end

/-! ## Definitions -/

section Fitting

variable {schema : Schema}

theorem forall_printedDefault {field : InputField} {n : Nat} :
    (∀ v ∈ schema.printedDefault field, v.depth ≤ n) ↔
      ∀ literal, writeDefault schema field = .ok (some literal) → literal.depth ≤ n := by
  unfold Schema.printedDefault
  cases writeDefault schema field with
  | error cause => simp [Except.toOption]
  | ok written => cases written <;> simp [Except.toOption, depth_spelling]

/-- The marks of a print nest nothing. -/
theorem directivesFit_of_depth {directives : List Directive} (h : ∀ d ∈ directives, d.depth = 0) :
    DirectivesFit directives :=
  greatest_le.mpr fun d hd => (h d hd).le.trans (Nat.zero_le _)

theorem directivesFit_deprecation (deprecation : Option String) :
    DirectivesFit (deprecationMarks deprecation) := by
  refine directivesFit_of_depth fun d hd => ?_
  cases deprecation with
  | none => cases hd
  | some reason =>
      unfold deprecationMarks at hd
      dsimp only at hd
      split at hd <;> obtain rfl := List.mem_singleton.mp hd <;> rfl

theorem directivesFit_marks (shape : TypeShape) : DirectivesFit shape.marks := by
  refine directivesFit_of_depth fun d hd => ?_
  cases shape with
  | scalar url =>
      obtain ⟨text, -, rfl⟩ := Option.map_eq_some_iff.mp (Option.mem_toList.mp hd)
      rfl
  | inputObject fields oneOf =>
      cases oneOf with
      | false => cases hd
      | true =>
          obtain rfl := List.mem_singleton.mp hd
          rfl
  | _ => cases hd

/-- What is asked of an input. -/
def InputField.Shallow (schema : Schema) (field : InputField) : Prop :=
  field.type.depth ≤ Parser.deepest
    ∧ ∀ literal, writeDefault schema field = .ok (some literal) → literal.depth ≤ Parser.deepest

theorem fits_inputDefinition {described : Bool} {field : InputField} :
    (schema.inputDefinition described field).Fits ↔ field.Shallow schema := by
  rw [InputField.Shallow, ← forall_printedDefault]
  exact ⟨fun h => ⟨h.type, h.default⟩,
    fun h => ⟨h.1, h.2, directivesFit_deprecation field.deprecation⟩⟩

theorem fits_argumentDefinitions {arguments : List InputField} :
    (∀ d ∈ schema.argumentDefinitions arguments, d.Fits) ↔ ∀ a ∈ arguments, a.Shallow schema := by
  simp only [Schema.argumentDefinitions, List.forall_mem_map, fits_inputDefinition]

theorem fits_fieldDefinition {field : Field} : (schema.fieldDefinition field).Fits ↔
    field.type.depth ≤ Parser.deepest ∧ ∀ a ∈ field.arguments, a.Shallow schema := by
  rw [← fits_argumentDefinitions]
  exact ⟨fun h => ⟨h.type, h.arguments⟩,
    fun h => ⟨h.2, h.1, directivesFit_deprecation field.deprecation⟩⟩

theorem fits_typeNode {t : NamedType} : (schema.typeNode t).Fits ↔
    (∀ field ∈ t.fields, field.type.depth ≤ Parser.deepest)
      ∧ ∀ input ∈ t.inputs, input.Shallow schema := by
  have hbody : (schema.typeNode t).Fits ↔ (schema.body t.shape).Fits :=
    ⟨fun h => h.body, fun h => ⟨directivesFit_marks t.shape, h⟩⟩
  have hfields : ∀ fields : List Field, (∀ d ∈ fields.map schema.fieldDefinition, d.Fits) ↔
      (∀ field ∈ fields, field.type.depth ≤ Parser.deepest)
        ∧ ∀ input ∈ fields.flatMap (·.arguments), input.Shallow schema := by
    intro fields
    simp only [List.forall_mem_map, fits_fieldDefinition, List.forall_mem_flatMap, ← forall₂_and]
  rw [hbody, NamedType.inputs, NamedType.fields, NamedType.inputFields]
  cases t.shape with
  | scalar url => simp [Schema.body, TypeBody.Fits]
  | object interfaces fields => simpa [Schema.body, TypeBody.Fits] using hfields fields
  | interface interfaces fields => simpa [Schema.body, TypeBody.Fits] using hfields fields
  | union members => simp [Schema.body, TypeBody.Fits]
  | enum values =>
      have hvalues : ∀ value ∈ values, value.definition.Fits :=
        fun value _ => directivesFit_deprecation value.deprecation
      simpa [Schema.body, TypeBody.Fits] using hvalues
  | inputObject fields oneOf =>
      simp only [Schema.body, TypeBody.Fits, List.forall_mem_map, fits_inputDefinition]
      simp

theorem fits_schemaDefinitions : (∀ node ∈ schema.schemaDefinitions, node.Fits) ↔
    (schema.description.isSome → ∃ operation, (schema.root? operation).isSome) := by
  have hbindings : rootBindings schema ≠ [] ↔ ∃ operation, (schema.root? operation).isSome := by
    simp only [rootBindings, ne_eq, List.filterMap_eq_nil_iff, Option.map_eq_none_iff,
      Classical.not_forall, exists_prop, mem_all, true_and, Option.isSome_iff_ne_none]
  have hnode : (SchemaNode.mk (describedAs schema.description) [] (rootBindings schema)).Fits ↔
      ∃ operation, (schema.root? operation).isSome :=
    Iff.trans ⟨fun h => h.roots, fun h => ⟨directivesFit_of_depth (by simp), h⟩⟩ hbindings
  unfold Schema.schemaDefinitions
  split
  · rename_i hs
    have hnone : schema.description.isSome = false := by
      rw [Schema.saysNothing, Bool.and_eq_true, Option.isNone_iff_eq_none] at hs
      rw [hs.1]
      rfl
    simp [hnone]
  · rename_i hs
    simp only [List.mem_singleton, forall_eq, hnode]
    refine ⟨fun h _ => h, fun h => ?_⟩
    by_cases hd : schema.description.isSome
    · exact h hd
    · -- without a description it is an uncommon name that makes the definition say something
      have hroots : ¬schema.hasConventionalRoots := by
        simpa [Schema.saysNothing, Option.not_isSome_iff_eq_none.mp hd] using hs
      unfold Schema.hasConventionalRoots at hroots
      simp only [List.all_eq_true, Classical.not_forall] at hroots
      obtain ⟨operation, -, ho⟩ := hroots
      refine ⟨operation, ?_⟩
      cases hr : schema.root? operation with
      | none => simp [hr] at ho
      | some name => rfl

/-- The definitions that a schema is printed as make a document if they say something and are
shallow. -/
theorem fits_definitions : (schema.definitions ≠ [] ∧ ∀ d ∈ schema.definitions, d.Fits) ↔
    schema.SaysSomething ∧ schema.Shallow := by
  have hshown : schema.definitions ≠ [] ↔ schema.saysNothing = false
      ∨ schema.shownDirectives ≠ [] ∨ schema.shownTypes ≠ [] := by
    have hdefinitions : schema.schemaDefinitions ≠ [] ↔ schema.saysNothing = false := by
      unfold Schema.schemaDefinitions
      split <;> simp_all
    rw [← hdefinitions]
    simp only [Schema.definitions, ne_eq, List.append_eq_nil_iff, List.map_eq_nil_iff]
    tauto
  have hinputs : (∀ input ∈ schema.inputs, input.Shallow schema) ↔
      (∀ d ∈ schema.shownDirectives, ∀ a ∈ d.arguments, a.Shallow schema)
        ∧ ∀ t ∈ schema.shownTypes, ∀ input ∈ t.inputs, input.Shallow schema := by
    simp only [Schema.inputs, Schema.shownDirectives, Schema.shownTypes, List.forall_mem_append,
      List.forall_mem_flatMap]
  have hfits : (∀ d ∈ schema.definitions, d.Fits) ↔
      (∀ node ∈ schema.schemaDefinitions, node.Fits)
        ∧ (∀ t ∈ schema.shownTypes, ∀ field ∈ t.fields, field.type.depth ≤ Parser.deepest)
        ∧ ∀ input ∈ schema.inputs, input.Shallow schema := by
    simp only [hinputs, Schema.definitions, List.forall_mem_append, List.forall_mem_map,
      Definition.Fits, DirectiveDefinition.Fits, Schema.directiveNode, fits_argumentDefinitions,
      fits_typeNode, forall₂_and]
    tauto
  rw [hshown, hfits, fits_schemaDefinitions]
  constructor
  · rintro ⟨hs, hr, hf, hi⟩
    exact ⟨⟨hs, hr⟩, hf, fun input hm => (hi input hm).1, fun input hm => (hi input hm).2⟩
  · rintro ⟨⟨hs, hr⟩, hf, hi, hd⟩
    exact ⟨hs, hr, hf, fun input hm => ⟨hi input hm, hd input hm⟩⟩

/-- A valid schema has a query type to print. -/
theorem saysSomething_of_valid (hu : schema.unchecked = false) (hv : schema.violations = []) :
    schema.SaysSomething := by
  have hroots : rootViolations schema = [] := by
    unfold Schema.violations at hv
    simp only [hu, Bool.false_eq_true, ↓reduceIte, List.append_eq_nil_iff] at hv
    exact hv.1.1
  have hquery := List.flatMap_eq_nil_iff.mp hroots .query (mem_all .query)
  cases hr : schema.root? .query with
  | none => simp [hr] at hquery
  | some name =>
      refine ⟨?_, fun _ => ⟨.query, by simp [hr]⟩⟩
      by_cases hs : schema.saysNothing = false
      · exact .inl hs
      · -- the query type has its common name, so it is not standard
        have hn : name = conventionalRoot .query := by
          simp only [Schema.saysNothing, Schema.hasConventionalRoots, Bool.not_eq_false,
            Bool.and_eq_true, List.all_eq_true] at hs
          simpa [hr] using hs.2 .query (mem_all .query)
        have hobject : notObject schema name = false := by simpa [hr] using hquery
        obtain ⟨t, ht⟩ : ∃ t, schema.type? name = some t := by
          cases ht : schema.type? name with
          | none => simp [notObject, ht] at hobject
          | some t => exact ⟨t, rfl⟩
        have hfound : schema.types.find? (fun t => t.name == name) = some t := ht
        have hname : t.name = "Query" :=
          (beq_iff_eq.mp (by simpa using List.find?_some hfound)).trans hn
        have hstandard : isStandardType "Query" = false := by decide
        have hshown : t ∈ schema.shownTypes :=
          List.mem_filter.mpr ⟨List.mem_of_find?_eq_some ht, by simp [hname, hstandard]⟩
        exact .inr (.inr (List.ne_nil_of_mem hshown))

end Fitting

end SdlAssembly.Schemas

namespace SdlAssembly.Annotated

open Grammar Text Lexer Annotation Schemas

variable {annotated : AnnotatedSchema} {schema : Schema} {Kind : SelectionSet → Prop}

theorem print_isOk_iff (h : annotated.Holds schema Kind) (hl : schema.Legible) {bare : String}
    (hb : printSchema schema = .ok bare) : (∃ text, annotated.print = .ok text) ↔
      schema.SaysSomething ∧ schema.Shallow := by
  rw [← fits_definitions]
  constructor
  · rintro ⟨text, hp⟩
    obtain ⟨hne, hf, -⟩ := print_eq_ok h hl hp
    exact ⟨hne, hf⟩
  · intro hf
    have hds := isPrinted_definitions hl
    have hs : Spells 0 bare _ := spells_printSchema hl hb
    have hlexemes : lexemes (Source.mk unnamedSource bare).body.toList = _ := hs.lexemes_eq
    have hread := parseDocument_written false (fun d hd => (hds d hd).1)
      (fun d hd => (hds d hd).2.1) hlexemes
    rw [AnnotatedSchema.print, h.schema, hb]
    split at hread
    · rename_i document hr
      have hadded : addDirectives bare annotated.directives = .ok (printDefinitions
          (document.definitions.map (appendDirectives annotated.directives))) :=
        Except.bind_of_ok hr
      exact ⟨_, congrArg (Except.mapError _) hadded⟩
    · exact (hread hf).elim

end SdlAssembly.Annotated

namespace SdlAssembly.Model

open Grammar Documents Schemas Annotated

section Printing

variable {model : TypeSystem} {annotated : AnnotatedSchema}

theorem unchecked_of_extended {extended : Schema} (he : model.extended = .ok extended)
    (hs : model.strict) : extended.unchecked = false := by
  obtain ⟨-, he⟩ := extended_eq_ok.mp he
  obtain ⟨existing, added, types, hbuilds, rfl⟩ := (extendWith_ok_iff rfl).mp he
  rw [hs]
  exact (hbuilds.withDefinitions_frame false).2.2.2 rfl

/-- The schema of a model can be printed, so that its text with metadata can only be refused when it
is read again. -/
theorem print_unreadable (ha : model.annotated.value = .ok annotated) {failure : ComposeFailure}
    (hf : annotated.print = .error failure) : ∃ e, failure = .unreadable e := by
  obtain ⟨schema, hb, rfl⟩ := annotated_eq_ok.mp ha
  obtain ⟨extended, -, rfl, -, bare, hbare⟩ := build_eq_ok.mp hb
  have hempty : AnnotatedSchema.Holds { schema := extended.withDefaultRoots }
      extended.withDefaultRoots fun _ => True := ⟨rfl, List.nodup_nil, by simp⟩
  have hholds : (model.attach extended.withDefaultRoots).value.Holds extended.withDefaultRoots
      fun _ => True :=
    (hempty.attachLeafTypes model.leafTypes).attachEntityKeys fun _ _ => trivial
  rw [AnnotatedSchema.print, hholds.schema, hbare] at hf
  have hf : (addDirectives bare _).mapError ComposeFailure.unreadable = .error failure := hf
  obtain ⟨e, -, rfl⟩ := Except.mapError_eq_error hf
  exact ⟨e, rfl⟩

/-- The schema of a sound model is printed with its metadata if it says something, as that of a
strict model does, and is shallow. Otherwise its text is refused when it is read again. -/
theorem print_annotated (h : model.Sound) (ha : model.annotated.value = .ok annotated) :
    ((∃ text, annotated.print = .ok text) ↔
        annotated.schema.SaysSomething ∧ annotated.schema.Shallow)
      ∧ (∀ failure, annotated.print = .error failure → ∃ e, failure = .unreadable e)
      ∧ (model.strict → annotated.schema.SaysSomething) := by
  obtain ⟨schema, hb, rfl⟩ := annotated_eq_ok.mp ha
  have hholds := h.holds schema
  obtain ⟨extended, he, rfl, hv, bare, hbare⟩ := build_eq_ok.mp hb
  rw [hholds.schema]
  refine ⟨print_isOk_iff hholds (h.legible hb) hbare, fun failure => print_unreadable ha,
    fun hs => saysSomething_of_valid ?_ (hv hs)⟩
  rw [(withDefaultRoots_frame extended).2.2]
  exact unchecked_of_extended he hs

end Printing

theorem print_annotated_ledger : ∃ (model : TypeSystem) (annotated : AnnotatedSchema),
    model.Sound ∧ model.strict ∧ model.annotated.value = .ok annotated
      ∧ annotated.schema.SaysSomething ∧ annotated.schema.Shallow := by
  obtain ⟨model, schema, text, hm, hstrict, hb, hp, -, -⟩ := ledger_composes
  have hs := sound_assemble proper_ledger hm
  have ha := annotated_eq_ok.mpr ⟨schema, hb, rfl⟩
  obtain ⟨hsome, hshallow⟩ := (print_annotated hs ha).1.mp ⟨text, hp⟩
  exact ⟨model, _, hs, hstrict, ha, hsome, hshallow⟩

/-- What is said of a text that is refused. -/
def refusal? : ComposeFailure → Option String
  | .unreadable e => some e.message
  | .unwritable _ => none

/-- Without types there is nothing to print, and an empty text is no document. -/
theorem print_annotated_nothing : ∃ (model : TypeSystem) (annotated : AnnotatedSchema)
    (e : SyntaxError), (assemble (some []) false).value = .ok model
      ∧ model.annotated.value = .ok annotated ∧ annotated.print = .error (.unreadable e)
      ∧ e.message = "Syntax Error: Unexpected <EOF>." := by
  have hk : (do
      let model ← (assemble (some []) false).value.toOption
      let annotated ← model.annotated.value.toOption
      return annotated.print.mapError refusal?) =
        some (.error (some "Syntax Error: Unexpected <EOF>.")) := by
    decide +kernel
  obtain ⟨model, hm, hk⟩ := Option.bind_eq_some_iff.mp hk
  obtain ⟨annotated, ha, hk⟩ := Option.bind_eq_some_iff.mp hk
  have hp := Option.some.inj hk
  cases hf : annotated.print with
  | ok text => simp [hf, Except.mapError] at hp
  | error failure =>
      cases failure with
      | unwritable cause => simp [hf, Except.mapError, refusal?] at hp
      | unreadable e =>
          have he : e.message = "Syntax Error: Unexpected <EOF>." := by
            simpa [hf, Except.mapError, refusal?] using hp
          exact ⟨model, annotated, e, Except.toOption_eq_some.mp hm,
            Except.toOption_eq_some.mp ha, hf, he⟩

end SdlAssembly.Model
