import SdlAssembly.Model.Build
import SdlAssembly.Proofs.RejectedKeys
import SdlAssembly.Proofs.Schema.Following
import SdlAssembly.Proofs.Schema.Reprinting
import SdlAssembly.Schema.Document

/-!
# Placeholders in place of scalars

Documents of definitions make a model that keeps all definitions, with a placeholder for each of
their scalars. Every name of a type stands for the same in the model as in the definitions, but for
the specification of a scalar, which a placeholder does not have.
-/

namespace SdlAssembly.Model

open Grammar Documents Schemas

/-! ## Models of definitions -/

/-- The definitions of documents, one document after the other. -/
def definitionsOf (documents : List NamedDocument) : List Definition :=
  documents.flatMap (·.document.definitions)

/-- A model of nothing but definitions. -/
structure TypeSystem.Defines (model : TypeSystem) (definitions : List Definition) (strict : Bool) :
    Prop where
  placeholders : model.placeholders.toList = Registry.firstOfEach (scalarEntries definitions)
  notReserved : ∀ node ∈ definitions.filterMap scalarDefinition?,
    isIntrospectionType node.name = false
  strict : model.strict = strict
  definitions : model.definitions = definitions

section Assembling

variable {documents : List NamedDocument} {strict : Bool} {model : TypeSystem}

theorem mergedDefinitions_of_not_annotates (h : ∀ d ∈ documents, ¬annotates d) :
    mergedDefinitions documents = definitionsOf documents := by
  have hall : documents.filter (fun d => !annotates d) = documents :=
    List.filter_eq_self.mpr fun d hd => by simpa using h d hd
  rw [mergedDefinitions, hall, definitionsOf]

theorem definesReserved_iff (h : ∀ d ∈ documents, ¬annotates d) :
    (∀ d ∈ documents, ¬DefinesReserved d) ↔
      ∀ node ∈ (definitionsOf documents).filterMap scalarDefinition?,
        isIntrospectionType node.name = false := by
  rw [definitionsOf, List.filterMap_flatMap]
  constructor
  · intro hr node hn
    obtain ⟨d, hd, hn⟩ := List.mem_flatMap.mp hn
    cases hi : isIntrospectionType node.name with
    | false => rfl
    | true => exact (hr d hd ⟨h d hd, node, hn, hi⟩).elim
  · rintro hn d hd ⟨-, node, hm, hi⟩
    rw [hn node (List.mem_flatMap.mpr ⟨d, hd, hm⟩)] at hi
    cases hi

/-- Documents of definitions are assembled, unless a scalar takes a reserved name. -/
theorem addAll_definitions (h : ∀ d ∈ documents, ¬annotates d) (model : TypeSystem) :
    (TypeSystem.addAll false model documents).value.2 = none ↔
      ∀ node ∈ (definitionsOf documents).filterMap scalarDefinition?,
        isIntrospectionType node.name = false := by
  have hk : ∀ d ∈ documents, ∀ key ∈ placedKeys d, key.Accepted := by
    intro d hd key hkey
    rw [placedKeys_of_not_annotates (h d hd)] at hkey
    cases hkey
  rw [← definesReserved_iff h]
  rcases addAll_failure hk model with ⟨hn, hnone⟩ | ⟨⟨d, hd, hr⟩, name, hsome⟩
  · exact ⟨fun _ => hn, fun _ => hnone⟩
  · rw [hsome]
    exact ⟨fun he => (nomatch he), fun hn => (hn d hd hr).elim⟩

theorem assemble_definitions (h : ∀ d ∈ documents, ¬annotates d)
    (hm : (assemble (some documents) strict).value = .ok model) :
    model.Defines (definitionsOf documents) strict := by
  unfold assemble at hm
  cases ha : (TypeSystem.addAll false { strict := strict } documents).value with
  | mk merged failure =>
      cases failure with
      | some failure => simp [ha] at hm
      | none =>
          simp only [Logged.value_andThen, ha, Logged.value_note, Except.ok.injEq] at hm
          rw [addDefaults_value] at hm
          subst hm
          have habsorbs := addAll_absorbs ha
          have hmerged := mergedDefinitions_of_not_annotates h
          refine ⟨?_, ?_, habsorbs.strict, ?_⟩
          · rw [habsorbs.placeholders, Registry.toList_addAll_empty, hmerged]
          · exact (addAll_definitions h _).mp (by rw [ha])
          · rw [habsorbs.definitions, hmerged, List.nil_append]

theorem assemble_definitions_isOk (h : ∀ d ∈ documents, ¬annotates d)
    (hr : ∀ node ∈ (definitionsOf documents).filterMap scalarDefinition?,
      isIntrospectionType node.name = false) (strict : Bool) :
    ∃ model, (assemble (some documents) strict).value = .ok model := by
  have hnone := (addAll_definitions h { strict := strict }).mpr hr
  unfold assemble
  cases ha : (TypeSystem.addAll false { strict := strict } documents).value with
  | mk merged failure =>
      rw [ha] at hnone
      obtain rfl : failure = none := hnone
      rw [Logged.value_andThen, ha]
      exact ⟨_, rfl⟩

end Assembling

/-! ## Definitions that are kept -/

/-- Every type is defined once, and no built-in scalar is. -/
structure DefinesOnce (definitions : List Definition) : Prop where
  nodup : ((typeDefinitions definitions).map TypeNode.name).Nodup
  notBuiltin : ∀ node ∈ typeDefinitions definitions, isBuiltinScalar node.name = false

/-- Definitions without those of scalars. -/
def withoutScalars (definitions : List Definition) : List Definition :=
  definitions.filter fun d => (scalarDefinition? d).isNone

section Retained

variable {model : TypeSystem} {definitions : List Definition} {strict : Bool}

theorem scalarDefinition?_eq_some {node : TypeNode} (h : node.body = .scalar) :
    scalarDefinition? (.type node) = some node := by
  obtain ⟨description, name, directives, body⟩ := node
  obtain rfl : body = .scalar := h
  rfl

theorem scalarDefinition?_eq_none {node : TypeNode} (h : node.body ≠ .scalar) :
    scalarDefinition? (.type node) = none := by
  obtain ⟨description, name, directives, body⟩ := node
  cases body with
  | scalar => exact (h rfl).elim
  | _ => rfl

theorem mem_scalars {node : TypeNode} : node ∈ definitions.filterMap scalarDefinition? ↔
    node ∈ typeDefinitions definitions ∧ node.body = .scalar := by
  rw [mem_typeDefinitions, List.mem_filterMap]
  constructor
  · rintro ⟨d, hd, hs⟩
    unfold scalarDefinition? at hs
    split at hs
    · cases hs
      exact ⟨hd, rfl⟩
    · cases hs
  · rintro ⟨hd, hb⟩
    exact ⟨_, hd, scalarDefinition?_eq_some hb⟩

theorem typeDefinitions_withoutScalars {node : TypeNode} :
    node ∈ typeDefinitions (withoutScalars definitions) ↔
      node ∈ typeDefinitions definitions ∧ node.body ≠ .scalar := by
  rw [mem_typeDefinitions, mem_typeDefinitions, withoutScalars, List.mem_filter]
  refine and_congr_right fun _ => ?_
  constructor
  · intro hs hb
    rw [scalarDefinition?_eq_some hb] at hs
    cases hs
  · intro hb
    rw [scalarDefinition?_eq_none hb]
    rfl

theorem typeDefinitions_sublist (p : Definition → Bool) :
    (typeDefinitions (definitions.filter p)).Sublist (typeDefinitions definitions) :=
  List.filter_sublist.filterMap _

theorem firstOfEach_eq_self {α : Type} {pairs : List (String × α)}
    (h : (pairs.map Prod.fst).Nodup) : Registry.firstOfEach pairs = pairs := by
  induction pairs with
  | nil => rfl
  | cons pair pairs ih =>
      obtain ⟨hk, h⟩ := List.nodup_cons.mp h
      rw [Registry.firstOfEach, ih h, List.filter_eq_self.mpr]
      intro later hl
      have hne : later.1 ≠ pair.1 := fun he => hk (he ▸ List.mem_map_of_mem hl)
      simpa using hne

theorem scalars_sublist (definitions : List Definition) :
    (definitions.filterMap scalarDefinition?).Sublist (typeDefinitions definitions) := by
  induction definitions with
  | nil => exact .slnil
  | cons d definitions ih =>
      cases d with
      | type node =>
          obtain ⟨description, name, directives, body⟩ := node
          cases body with
          | scalar => exact ih.cons_cons _
          | _ => exact ih.cons _
      | _ => exact ih

/-- With each type defined once, every scalar has its own placeholder. -/
theorem TypeSystem.Defines.toList_placeholders (h : model.Defines definitions strict)
    (hd : DefinesOnce definitions) : model.placeholders.toList =
      (definitions.filterMap scalarDefinition?).map
        fun node => (node.name, Placeholder.ofDefinition node) := by
  have hall : (definitions.filterMap scalarDefinition?).filter
      (fun node => !isBuiltinScalar node.name) = definitions.filterMap scalarDefinition? :=
    List.filter_eq_self.mpr fun node hn => by simp [hd.notBuiltin node (mem_scalars.mp hn).1]
  have hentries : scalarEntries definitions = (definitions.filterMap scalarDefinition?).map
      fun node => (node.name, Placeholder.ofDefinition node) := by
    rw [scalarEntries, hall]
    rfl
  have hnodup : ((scalarEntries definitions).map Prod.fst).Nodup := by
    rw [hentries, List.map_map]
    exact hd.nodup.sublist ((scalars_sublist definitions).map _)
  rw [h.placeholders, firstOfEach_eq_self hnodup, hentries]

theorem TypeSystem.Defines.placeholders_eq (h : model.Defines definitions strict) :
    model.placeholders = ({} : Placeholders).addAll (scalarEntries definitions) :=
  Registry.ext_toList (by rw [h.placeholders, Registry.toList_addAll_empty])

/-- A scalar has a placeholder, unless it is built in. -/
theorem TypeSystem.Defines.contains_placeholders (h : model.Defines definitions strict)
    {node : TypeNode} (hn : node ∈ definitions.filterMap scalarDefinition?)
    (hb : isBuiltinScalar node.name = false) : model.placeholders.contains node.name := by
  have hentry : (node.name, Placeholder.ofDefinition node) ∈ scalarEntries definitions :=
    List.mem_map.mpr ⟨node, List.mem_filter.mpr ⟨hn, by simp [hb]⟩, rfl⟩
  rw [h.placeholders_eq]
  exact Registry.contains_addAll_of_mem hentry

theorem TypeSystem.Defines.retained (h : model.Defines definitions strict) :
    model.retained = withoutScalars definitions := by
  rw [TypeSystem.retained, h.definitions, withoutScalars]
  refine List.filter_congr fun d hm => ?_
  cases d with
  | type node =>
      by_cases hb : node.body = .scalar
      · have hs := scalarDefinition?_eq_some hb
        have hreplaced : (model.placeholders.contains node.name
            || isBuiltinScalar node.name) = true := by
          cases hk : isBuiltinScalar node.name with
          | true => exact Bool.or_true _
          | false =>
              rw [h.contains_placeholders (List.mem_filterMap.mpr ⟨_, hm, hs⟩) hk]
              rfl
        simp only [TypeSystem.replaces, hb, hreplaced, hs]
        rfl
      · rw [scalarDefinition?_eq_none hb]
        cases hk : node.body with
        | scalar => exact (hb hk).elim
        | _ => simp [TypeSystem.replaces, hk]
  | _ => rfl

end Retained

/-! ## What names stand for -/

/-- Definitions without extensions. -/
structure Unextended (definitions : List Definition) : Prop where
  types : typeExtensions definitions = []
  schema : (schemaNodes definitions).2 = []

theorem unextended_definitionsOf {documents : List NamedDocument}
    (h : ∀ d ∈ documents, ¬annotates d) : Unextended (definitionsOf documents) := by
  have hall : ∀ d ∈ definitionsOf documents, isExtension d = false := by
    intro d hd
    obtain ⟨document, hm, hd⟩ := List.mem_flatMap.mp hd
    have hn := h document hm
    rw [annotates, Bool.not_eq_true, List.any_eq_false] at hn
    simpa using hn d hd
  constructor
  · refine List.filterMap_eq_nil_iff.mpr fun d hd => ?_
    have he := hall d hd
    cases d with
    | typeExtension node => cases he
    | _ => rfl
  · refine List.filterMap_eq_nil_iff.mpr fun d hd => ?_
    have he := hall d hd
    cases d with
    | schemaExtension node => cases he
    | _ => rfl

/-- The types of the placeholders for scalars. -/
def placeholderTypes (definitions : List Definition) : List NamedType :=
  (definitions.filterMap scalarDefinition?).map fun node => (Placeholder.ofDefinition node).type

/-- The source of a definition, or of the placeholder for it. -/
def replacement (node : TypeNode) : TypeSource :=
  match node.body with
  | .scalar => .ready (Placeholder.ofDefinition node).type
  | _ => .written node []

theorem replacement_scalar {node : TypeNode} (h : node.body = .scalar) :
    replacement node = .ready (Placeholder.ofDefinition node).type := by
  unfold replacement
  rw [h]

theorem replacement_of_ne {node : TypeNode} (h : node.body ≠ .scalar) :
    replacement node = .written node [] := by
  unfold replacement
  split
  · exact (h (by assumption)).elim
  · rfl

/-- Definitions of types that are not reserved, each defined once. -/
structure Plain (definitions : List Definition) : Prop extends
    DefinesOnce definitions, Unextended definitions where
  notReserved : ∀ node ∈ definitions.filterMap scalarDefinition?,
    isIntrospectionType node.name = false

namespace Plain

variable {definitions : List Definition} {name : String}

theorem map_name_placeholderTypes :
    (placeholderTypes definitions).map NamedType.name =
      (definitions.filterMap scalarDefinition?).map TypeNode.name := by
  rw [placeholderTypes, List.map_map]
  rfl

theorem nodup_placeholderTypes (h : Plain definitions) :
    ((placeholderTypes definitions).map NamedType.name).Nodup := by
  rw [map_name_placeholderTypes]
  exact h.nodup.sublist ((scalars_sublist definitions).map _)

theorem not_standard (h : Plain definitions) {node : TypeNode}
    (hn : node ∈ definitions.filterMap scalarDefinition?) : isStandardType node.name = false := by
  rw [isStandardType, h.notBuiltin node (mem_scalars.mp hn).1, h.notReserved node hn]
  rfl

theorem foundation_grounded (h : Plain definitions) :
    Grounded (Schema.ofTypes (placeholderTypes definitions)).types := by
  refine grounded_ofTypes h.nodup_placeholderTypes fun t ht => ?_
  obtain ⟨node, hn, rfl⟩ := List.mem_map.mp ht
  exact h.not_standard hn

theorem typeExtensions_withoutScalars (h : Plain definitions) :
    typeExtensions (withoutScalars definitions) = [] :=
  List.sublist_nil.mp (h.types ▸ (List.filter_sublist.filterMap _))

/-- The sources of the definitions alone. -/
theorem find?_alone (h : Plain definitions) (hs : isStandardType name = false) :
    (sourcesOf [] definitions).find? name =
      (lastDefinition? definitions name).map fun node => .written node [] := by
  rw [find?_sourcesOf hs, h.types, List.find?_nil, Option.map_none, Option.or_none]
  rfl

theorem lastDefinition?_withoutScalars (h : Plain definitions) {node : TypeNode} :
    lastDefinition? (withoutScalars definitions) name = some node ↔
      lastDefinition? definitions name = some node ∧ node.body ≠ .scalar := by
  have hkept : ((typeDefinitions (withoutScalars definitions)).map TypeNode.name).Nodup :=
    h.nodup.sublist ((typeDefinitions_sublist _).map _)
  rw [lastDefinition?_eq_some hkept, lastDefinition?_eq_some h.nodup,
    typeDefinitions_withoutScalars, and_right_comm]

/-- The placeholder of a name is that of its definition. -/
theorem find?_placeholderTypes (h : Plain definitions) {t : NamedType} :
    (placeholderTypes definitions).find? (fun t => t.name == name) = some t ↔
      ∃ node, lastDefinition? definitions name = some node ∧ node.body = .scalar
        ∧ t = (Placeholder.ofDefinition node).type := by
  rw [find?_eq_some_iff h.nodup_placeholderTypes, placeholderTypes, List.mem_map]
  constructor
  · rintro ⟨⟨node, hn, rfl⟩, rfl⟩
    obtain ⟨hn, hb⟩ := mem_scalars.mp hn
    exact ⟨node, (lastDefinition?_eq_some h.nodup).mpr ⟨hn, rfl⟩, hb, rfl⟩
  · rintro ⟨node, hn, hb, rfl⟩
    obtain ⟨hm, rfl⟩ := (lastDefinition?_eq_some h.nodup).mp hn
    exact ⟨⟨node, mem_scalars.mpr ⟨hm, hb⟩, rfl⟩, rfl⟩

/-- A name without a definition has no placeholder and no definition that is kept. -/
theorem undefined (h : Plain definitions) (hl : lastDefinition? definitions name = none) :
    lastDefinition? (withoutScalars definitions) name = none
      ∧ (placeholderTypes definitions).find? (fun t => t.name == name) = none := by
  constructor
  · refine Option.eq_none_iff_forall_ne_some.mpr fun node hn => ?_
    rw [h.lastDefinition?_withoutScalars, hl] at hn
    cases hn.1
  · refine Option.eq_none_iff_forall_ne_some.mpr fun t ht => ?_
    obtain ⟨node, hn, -⟩ := h.find?_placeholderTypes.mp ht
    cases hl.symm.trans hn

/-- A scalar has a placeholder, and no definition that is kept. -/
theorem replaced (h : Plain definitions) {node : TypeNode}
    (hl : lastDefinition? definitions name = some node) (hb : node.body = .scalar) :
    lastDefinition? (withoutScalars definitions) name = none
      ∧ (placeholderTypes definitions).find? (fun t => t.name == name) =
        some (Placeholder.ofDefinition node).type := by
  refine ⟨Option.eq_none_iff_forall_ne_some.mpr fun other hn => ?_,
    h.find?_placeholderTypes.mpr ⟨node, hl, hb, rfl⟩⟩
  obtain ⟨hn, hne⟩ := h.lastDefinition?_withoutScalars.mp hn
  cases hl.symm.trans hn
  exact hne hb

/-- A type that is no scalar has a definition that is kept, and no placeholder. -/
theorem kept (h : Plain definitions) {node : TypeNode}
    (hl : lastDefinition? definitions name = some node) (hb : node.body ≠ .scalar) :
    lastDefinition? (withoutScalars definitions) name = some node
      ∧ (placeholderTypes definitions).find? (fun t => t.name == name) = none := by
  refine ⟨h.lastDefinition?_withoutScalars.mpr ⟨hl, hb⟩,
    Option.eq_none_iff_forall_ne_some.mpr fun t ht => ?_⟩
  obtain ⟨other, hn, hs, -⟩ := h.find?_placeholderTypes.mp ht
  cases hl.symm.trans hn
  exact hb hs

/-- The sources on top of the placeholders. -/
theorem find?_replaced (h : Plain definitions) (hs : isStandardType name = false) :
    (sourcesOf (Schema.ofTypes (placeholderTypes definitions)).types
      (withoutScalars definitions)).find? name =
        (lastDefinition? definitions name).map replacement := by
  rw [find?_sourcesOf hs, find?_ofTypes h.nodup_placeholderTypes hs,
    h.typeExtensions_withoutScalars]
  cases hl : lastDefinition? definitions name with
  | none =>
      obtain ⟨hkept, hplaceholder⟩ := h.undefined hl
      rw [hkept, hplaceholder]
      rfl
  | some node =>
      by_cases hb : node.body = .scalar
      · obtain ⟨hkept, hplaceholder⟩ := h.replaced hl hb
        rw [hkept, hplaceholder, Option.map_some, Option.map_some, replacement_scalar hb]
        rfl
      · obtain ⟨hkept, hplaceholder⟩ := h.kept hl hb
        rw [hkept, hplaceholder, Option.map_some, Option.map_some, replacement_of_ne hb]
        rfl

/-- The sources of the definitions, with placeholders for their scalars. -/
abbrev replacedSources (definitions : List Definition) : Sources :=
  sourcesOf (Schema.ofTypes (placeholderTypes definitions)).types (withoutScalars definitions)

theorem replacement_like (node : TypeNode) : (replacement node).Like (.written node []) := by
  by_cases hb : node.body = .scalar
  · rw [replacement_scalar hb]
    exact .inr (.inl (.scalar hb rfl rfl))
  · rw [replacement_of_ne hb]
    exact .inl rfl

/-- Names stand for much the same with placeholders and without. -/
theorem find?_like (h : Plain definitions) (name : String) :
    Option.Rel TypeSource.Like ((replacedSources definitions).find? name)
      ((sourcesOf [] definitions).find? name) := by
  cases hs : standardType? name with
  | some t =>
      rw [find?_of_standard hs, find?_of_standard hs]
      exact .some (.inl rfl)
  | none =>
      have hs : isStandardType name = false := by
        rw [← standardType?_isSome, hs]
        rfl
      rw [h.find?_replaced hs, h.find?_alone hs]
      cases lastDefinition? definitions name with
      | none => exact .none
      | some node => exact .some (replacement_like node)

theorem within (h : Plain definitions) :
    (sourcesOf [] definitions).Within (replacedSources definitions) := by
  refine ⟨fun name s hs => ?_, named_sourcesOf _ _, named_sourcesOf _ _⟩
  have hr := h.find?_like name
  rw [hs] at hr
  cases hf : (replacedSources definitions).find? name with
  | none =>
      rw [hf] at hr
      cases hr
  | some s' =>
      rw [hf] at hr
      cases hr with
      | some hl => exact ⟨s', rfl, hl.symm⟩

theorem within' (h : Plain definitions) :
    (replacedSources definitions).Within (sourcesOf [] definitions) := by
  refine ⟨fun name s hs => ?_, named_sourcesOf _ _, named_sourcesOf _ _⟩
  have hr := h.find?_like name
  rw [hs] at hr
  cases hf : (sourcesOf [] definitions).find? name with
  | none =>
      rw [hf] at hr
      cases hr
  | some s' =>
      rw [hf] at hr
      cases hr with
      | some hl => exact ⟨s', rfl, hl⟩

end Plain

end SdlAssembly.Model
