import SdlAssembly.Proofs.AnnotatedText
import SdlAssembly.Proofs.Parsing.ParsedDocuments
import SdlAssembly.Proofs.PlaceholderSchemas
import SdlAssembly.Proofs.Schema.Legibility
import SdlAssembly.Proofs.Selections
import SdlAssembly.Proofs.SoundModels

/-!
# Composed models

The text that a model is composed to can be read, and its definitions say of their types what the
model knows of them.
-/

namespace SdlAssembly.Model

open Grammar Documents Annotation Schemas Annotated

section Composing

variable {model : TypeSystem} {schema : Schema} {text : String}

theorem TypeSystem.Sound.onlyScalars (h : model.Sound) : OnlyScalars model.foundation.types := by
  have hn : ((model.placeholders.values.map Placeholder.type).map NamedType.name).Nodup := by
    rw [List.map_map]
    exact h.nodup
  have hs : ∀ t ∈ model.placeholders.values.map Placeholder.type, isStandardType t.name = false := by
    intro t ht
    obtain ⟨p, hp, rfl⟩ := List.mem_map.mp ht
    exact (h.names p hp).2
  refine ⟨grounded_ofTypes hn hs, fun t ht hf => ?_⟩
  have hlists : model.foundation.Lists (target? (model.placeholders.values.map Placeholder.type)) :=
    arrange_lists _ hn
  have hm := mem_of_target? (hlists.sound t ht) hf
  obtain ⟨p, hp, rfl⟩ := List.mem_map.mp hm
  exact ⟨(h.names p hp).1, none, rfl⟩

/-- The schema of a sound model is legible. -/
theorem TypeSystem.Sound.legible (h : model.Sound) (hb : model.build.value = .ok schema) :
    schema.Legible := by
  obtain ⟨extended, he, rfl, -, -⟩ := build_eq_ok.mp hb
  obtain ⟨-, he⟩ := extended_eq_ok.mp he
  obtain ⟨existing, added, types, hbuilds, rfl⟩ := (extendWith_ok_iff rfl).mp he
  refine legible_withDefaultRoots h.onlyScalars ?_ ?_ ?_ hbuilds
  · exact fun d hd => List.any_eq_true.mpr ⟨d, hd, beq_self_eq_true _⟩
  · intro operation
    cases operation <;> rfl
  · exact fun d hd => h.definitions d (List.mem_filter.mp hd).1

theorem annotated_eq_ok {annotated : AnnotatedSchema} :
    model.annotated.value = .ok annotated ↔
      ∃ schema, model.build.value = .ok schema ∧ annotated = (model.attach schema).value := by
  unfold TypeSystem.annotated
  rw [Logged.value_andThen]
  cases model.build.value with
  | error failure => simp
  | ok schema => simp [eq_comm (a := annotated)]

theorem compose_of_build (h : model.build.value = .ok schema) :
    model.compose.value = (model.attach schema).value.print.mapError .print := by
  unfold TypeSystem.compose
  rw [Logged.value_map, annotated_eq_ok.mpr ⟨schema, h, rfl⟩]

theorem exists_print (h : model.compose.value = .ok text) :
    ∃ annotated, model.annotated.value = .ok annotated ∧ annotated.print = .ok text := by
  unfold TypeSystem.compose at h
  rw [Logged.value_map] at h
  cases ha : model.annotated.value with
  | error failure =>
      rw [ha] at h
      cases h
  | ok annotated =>
      rw [ha] at h
      exact ⟨annotated, rfl, Except.mapError_eq_ok h⟩

/-- What a sound model knows of the types of its schema. -/
theorem TypeSystem.Sound.holds (h : model.Sound) (schema : Schema) :
    (model.attach schema).value.Holds schema IsPattern := by
  have hempty : AnnotatedSchema.Holds { schema := schema } schema IsPattern :=
    ⟨rfl, List.nodup_nil, by simp⟩
  refine (hempty.attachLeafTypes model.leafTypes).attachEntityKeys fun pair hp => ?_
  exact h.patterns pair.2 (List.mem_append.mpr (key_of_mem_entities hp))

/-- The text that a sound model is composed to can be read. Its type definitions say what the model
knows of their types, the key in the form in which it is read back, and no more. -/
theorem compose_describes (h : model.Sound) (hc : model.compose.value = .ok text) (name : String)
    (located : Bool) :
    ∃ annotated document, model.annotated.value = .ok annotated
      ∧ parseDocument ⟨name, text⟩ located = .ok document
      ∧ (∀ d ∈ document.definitions, annotated.Describes d)
      ∧ ∀ type, ∀ key ∈ annotated.entityKey? type,
        parseSelectionSet (formatSelectionSet key) = .ok key := by
  obtain ⟨annotated, ha, hp⟩ := exists_print hc
  obtain ⟨schema, hb, rfl⟩ := annotated_eq_ok.mp ha
  obtain ⟨document, hr, hd⟩ := parseDocument_print (h.holds schema) (h.legible hb) hp name located
  refine ⟨_, document, ha, hr, hd, fun type key hk => ?_⟩
  obtain ⟨fields, hf⟩ := (h.holds schema).metadataOf type key hk
  obtain ⟨-, hne, hproper, hdepth⟩ := parseSelectionSet_spec hf
  exact parseSelectionSet_iff.mpr ⟨lexemes_formatSelectionSet hproper, hne, hproper, hdepth⟩

end Composing

/-- A scalar with quotes in its annotation and an entity whose key has a block string in it. -/
def ledger : List NamedDocument :=
  ["type Query \x7b money: Money \x7d type Account \x7b id(of: String): Money! \x7d scalar Money",
    "extend scalar Money @runtimeType(name: \"a \\\"b\\\\\") "
      ++ "extend type Account @key(fields: \"id(of: \\\"\\\"\\\"x\\n\\\"\\\"\\\") # all\\n\")"].filterMap
    fun text => (parseDocument ⟨unnamedSource, text⟩ false).toOption.map (⟨·, none⟩)

theorem proper_ledger : ∀ d ∈ ledger, ∀ x ∈ d.document.definitions, x.Proper := by
  intro d hd
  obtain ⟨text, -, hd⟩ := List.mem_filterMap.mp hd
  obtain ⟨document, hp, rfl⟩ := Option.map_eq_some_iff.mp hd
  exact proper_of_parseDocument (Except.toOption_eq_some.mp hp)

theorem ledger_composes : ∃ (model : TypeSystem) (schema : Schema) (text : String),
    (assemble (some ledger)).value = .ok model ∧ model.strict
      ∧ model.build.value = .ok schema ∧ (model.attach schema).value.print = .ok text
      ∧ ((model.attach schema).value.leafType? "Money").bind (·.runtimeType) = some "a \"b\\"
      ∧ ((model.attach schema).value.entityKey? "Account").isSome := by
  have hk : (do
      let model ← (assemble (some ledger)).value.toOption
      let annotated ← model.annotated.value.toOption
      let _ ← annotated.print.toOption
      return (model.strict, (annotated.leafType? "Money").bind (·.runtimeType),
        (annotated.entityKey? "Account").isSome)) = some (true, some "a \"b\\", true) := by
    decide +kernel
  obtain ⟨model, hm, hk⟩ := Option.bind_eq_some_iff.mp hk
  obtain ⟨annotated, ha, hk⟩ := Option.bind_eq_some_iff.mp hk
  obtain ⟨text, hp, hk⟩ := Option.bind_eq_some_iff.mp hk
  obtain ⟨hs, hk⟩ := Prod.mk.inj (Option.some.inj hk)
  obtain ⟨hleaf, hkey⟩ := Prod.mk.inj hk
  obtain ⟨schema, hb, rfl⟩ := annotated_eq_ok.mp (Except.toOption_eq_some.mp ha)
  exact ⟨model, schema, text, Except.toOption_eq_some.mp hm, hs, hb,
    Except.toOption_eq_some.mp hp, hleaf, hkey⟩

theorem compose_describes_ledger : ∃ (model : TypeSystem) (text : String)
    (annotated : AnnotatedSchema) (document : Document),
    model.Sound ∧ model.compose.value = .ok text
      ∧ (annotated.leafType? "Money").bind (·.runtimeType) = some "a \"b\\"
      ∧ (annotated.entityKey? "Account").isSome
      ∧ model.annotated.value = .ok annotated
      ∧ parseDocument ⟨unnamedSource, text⟩ = .ok document
      ∧ (∀ d ∈ document.definitions, annotated.Describes d)
      ∧ ∀ type, ∀ key ∈ annotated.entityKey? type,
        parseSelectionSet (formatSelectionSet key) = .ok key := by
  obtain ⟨model, schema, text, hm, -, hb, hp, hleaf, hkey⟩ := ledger_composes
  have hs := sound_assemble proper_ledger hm
  have hc : model.compose.value = .ok text := by rw [compose_of_build hb, hp, Except.mapError]
  obtain ⟨annotated, document, ha, hr, hd, hkeys⟩ := compose_describes hs hc unnamedSource true
  obtain ⟨schema', hb', rfl⟩ := annotated_eq_ok.mp ha
  obtain rfl := Except.ok.inj (hb.symm.trans hb')
  exact ⟨model, text, _, document, hs, hc, hleaf, hkey, ha, hr, hd, hkeys⟩

end SdlAssembly.Model
