import SdlAssembly.Proofs.Metadata
import SdlAssembly.Proofs.Schema.Rooting

/-!
# What is attached to a schema

A leaf type has a representation and no key; an object that is no root type has a key if a pattern
of its own or one for every type gives it one, and no representation. Nothing else has metadata, and
it does not matter which of the two is attached first.
-/

namespace SdlAssembly.Annotated

open Grammar Annotation Schemas

/-! ## Entries of new names -/

section Entries

variable {α : Type} {metadata : List (String × Metadata)}

theorem change_new {f : Metadata → Metadata} {name : String}
    (h : name ∉ metadata.map Prod.fst) : change f name metadata = metadata ++ [(name, f {})] := by
  induction metadata with
  | nil => rfl
  | cons pair metadata ih =>
      obtain ⟨key, m⟩ := pair
      obtain ⟨hne, h⟩ := List.ne_and_not_mem_of_not_mem_cons h
      unfold change
      rw [if_neg (by simpa using hne.symm), ih h]
      rfl

/-- Changes under names that are new and differ make entries in order. -/
theorem foldl_change {key : α → String} {f : α → Metadata → Metadata} {items : List α}
    (h : (metadata.map Prod.fst ++ items.map key).Nodup) :
    items.foldl (fun metadata item => change (f item) (key item) metadata) metadata =
      metadata ++ items.map fun item => (key item, f item {}) := by
  induction items generalizing metadata with
  | nil => simp
  | cons item items ih =>
      have hnew : key item ∉ metadata.map Prod.fst := fun hm =>
        (List.nodup_append.mp h).2.2 _ hm _ List.mem_cons_self rfl
      have hrest :
          (((metadata ++ [(key item, f item {})]).map Prod.fst) ++ items.map key).Nodup := by
        simpa using h
      rw [List.foldl_cons, change_new hnew, ih hrest]
      simp

end Entries

/-! ## The two tables -/

section Tables

variable {registry : LeafTypes} {patterns : EntityPatterns} {schema : Schema}

def leafRow (registry : LeafTypes) (t : NamedType) : String × Metadata :=
  (t.name, { leafType := some (leafTypeOf registry t) })

def entityRow (entity : String × SelectionSet) : String × Metadata :=
  (entity.1, { entityKey := some entity.2 })

theorem attachLeafTypes_eq (annotated : AnnotatedSchema) :
    annotated.attachLeafTypes registry =
      { annotated with
        metadata := (annotatedLeaves annotated.schema).foldl (fun metadata t =>
          change (fun m => { m with leafType := some (leafTypeOf registry t) }) t.name metadata)
          annotated.metadata } := by
  unfold AnnotatedSchema.attachLeafTypes
  induction annotatedLeaves annotated.schema generalizing annotated with
  | nil => rfl
  | cons t leaves ih => exact ih (annotated.setLeafType t.name (leafTypeOf registry t))

theorem attachEntityKeys_eq (annotated : AnnotatedSchema) :
    (annotated.attachEntityKeys patterns).value =
      { annotated with
        metadata := (entities annotated.schema patterns).foldl (fun metadata entity =>
          change (fun m => { m with entityKey := some entity.2 }) entity.1 metadata)
          annotated.metadata } := by
  have hfold : ∀ (pairs : List (String × SelectionSet)) (t : Logged AnnotatedSchema),
      (pairs.foldl (fun t pair =>
        (t.map fun annotated => annotated.setEntityKey pair.1 pair.2).note .debug
          ("Type '" ++ pair.1 ++ "' is an entity keyed by '" ++ formatSelectionSet pair.2 ++ "'"))
        t).value = { t.value with
          metadata := pairs.foldl (fun metadata entity =>
            change (fun m => { m with entityKey := some entity.2 }) entity.1 metadata)
            t.value.metadata } := by
    intro pairs
    induction pairs with
    | nil => exact fun t => rfl
    | cons pair pairs ih => exact fun t => ih _
  exact hfold _ _

theorem map_fst_entities : ((entities schema patterns).map Prod.fst).Sublist
    ((entityCandidates schema).map NamedType.name) := by
  unfold entities
  induction entityCandidates schema with
  | nil => exact .slnil
  | cons t candidates ih =>
      cases hk : keyOf schema patterns t with
      | none =>
          rw [List.filterMap_cons_none (by simp [hk])]
          exact ih.cons _
      | some key =>
          rw [List.filterMap_cons_some (by simp [hk]; rfl)]
          exact ih.cons_cons _

/-- No type has an entry in both tables, and none has two in one. -/
theorem nodup_rows (patterns : EntityPatterns) (hn : schema.typeNames.Nodup) :
    ((annotatedLeaves schema).map NamedType.name
      ++ (entities schema patterns).map Prod.fst).Nodup := by
  have hleaves : ((annotatedLeaves schema).map NamedType.name).Nodup :=
    hn.sublist (List.filter_sublist.map _)
  have hcandidates : ((entityCandidates schema).map NamedType.name).Nodup :=
    hn.sublist (List.filter_sublist.map _)
  refine List.nodup_append.mpr ⟨hleaves, hcandidates.sublist map_fst_entities, ?_⟩
  rintro name hl other ho rfl
  obtain ⟨leaf, hleaf, rfl⟩ := List.mem_map.mp hl
  obtain ⟨object, hobject, hname⟩ := List.mem_map.mp (map_fst_entities.subset ho)
  obtain ⟨hin, hleaf⟩ := List.mem_filter.mp hleaf
  obtain ⟨hin', hobject⟩ := List.mem_filter.mp hobject
  have hsame : some leaf = some object := by
    rw [← (Schema.mem_types hn).mp hin, ← (Schema.mem_types hn).mp hin', hname]
  cases hsame
  unfold NamedType.isLeaf at hleaf
  unfold NamedType.isObject at hobject
  cases hshape : leaf.shape <;> simp [hshape] at hleaf hobject

/-- Leaf types without entries get them at the end, in the order of the schema. -/
theorem attachLeafTypes_new (annotated : AnnotatedSchema)
    (h : (annotated.metadata.map Prod.fst
      ++ (annotatedLeaves annotated.schema).map NamedType.name).Nodup) :
    annotated.attachLeafTypes registry =
      { annotated with
        metadata := annotated.metadata
          ++ (annotatedLeaves annotated.schema).map (leafRow registry) } := by
  rw [attachLeafTypes_eq, foldl_change h]
  rfl

/-- Entities without entries get them at the end, in the order of the schema. -/
theorem attachEntityKeys_new (annotated : AnnotatedSchema)
    (h : (annotated.metadata.map Prod.fst
      ++ (entities annotated.schema patterns).map Prod.fst).Nodup) :
    (annotated.attachEntityKeys patterns).value =
      { annotated with
        metadata := annotated.metadata ++ (entities annotated.schema patterns).map entityRow } := by
  rw [attachEntityKeys_eq, foldl_change h]
  rfl

theorem map_fst_leafRows (leaves : List NamedType) :
    (leaves.map (leafRow registry)).map Prod.fst = leaves.map NamedType.name := by
  rw [List.map_map]
  rfl

theorem map_fst_entityRows (entities : List (String × SelectionSet)) :
    (entities.map entityRow).map Prod.fst = entities.map Prod.fst := by
  rw [List.map_map]
  rfl

/-- Either table can be made first. -/
theorem metadata_attached (registry : LeafTypes) (patterns : EntityPatterns)
    (hn : schema.typeNames.Nodup) :
    ((AnnotatedSchema.attachLeafTypes registry { schema := schema }).attachEntityKeys
        patterns).value.metadata =
      (annotatedLeaves schema).map (leafRow registry) ++ (entities schema patterns).map entityRow
    ∧ (AnnotatedSchema.attachLeafTypes registry
        (AnnotatedSchema.attachEntityKeys patterns { schema := schema }).value).metadata =
      (entities schema patterns).map entityRow
        ++ (annotatedLeaves schema).map (leafRow registry) := by
  have hrows := nodup_rows patterns hn
  have hswapped := List.perm_append_comm.nodup_iff.mp hrows
  have hleaves := (List.nodup_append.mp hrows).1
  have hentities := (List.nodup_append.mp hrows).2.1
  constructor
  · rw [attachLeafTypes_new ⟨schema, []⟩ hleaves, attachEntityKeys_new]
    · rfl
    · rw [List.nil_append, map_fst_leafRows]
      exact hrows
  · rw [attachEntityKeys_new ⟨schema, []⟩ hentities, attachLeafTypes_new]
    · rfl
    · rw [List.nil_append, map_fst_entityRows]
      exact hswapped

/-- No name has two entries. -/
theorem nodup_map_fst_rows (registry : LeafTypes) (patterns : EntityPatterns)
    (hn : schema.typeNames.Nodup) :
    (((annotatedLeaves schema).map (leafRow registry)
      ++ (entities schema patterns).map entityRow).map Prod.fst).Nodup := by
  rw [List.map_append, map_fst_leafRows, map_fst_entityRows]
  exact nodup_rows patterns hn

end Tables

/-! ## What is known of a type -/

section Known

variable {registry : LeafTypes} {patterns : EntityPatterns} {schema : Schema} {t : NamedType}
  {m : Metadata} {name : String}

/-- What is known of a type: how a leaf type is represented, or the key of an object that is no root
type. -/
inductive IsKnown (registry : LeafTypes) (patterns : EntityPatterns) (schema : Schema)
    (t : NamedType) : Metadata → Prop
  /-- A leaf type that is registered has its entry as it is. -/
  | registered {info : LeafType} (leaf : t.isLeaf) (entry : registry.get? t.name = some info) :
      IsKnown registry patterns schema t ⟨some info, none⟩
  | scalar {url : Option String} (shape : t.shape = .scalar url)
      (missing : registry.get? t.name = none) :
      IsKnown registry patterns schema t ⟨some ⟨t.name, some "str", some "str"⟩, none⟩
  | enum {values : List EnumValue} (shape : t.shape = .enum values)
      (missing : registry.get? t.name = none) :
      IsKnown registry patterns schema t ⟨some ⟨t.name, some t.name, some "str"⟩, none⟩
  /-- The pattern of an object itself is its key, whether or not it fits. -/
  | own {key : SelectionSet} (object : t.isObject)
      (notRoot : ∀ operation, schema.root? operation ≠ some t.name)
      (pattern : patterns.types.get? t.name = some key) :
      IsKnown registry patterns schema t ⟨none, some key⟩
  /-- An object without a pattern of its own has the first pattern for every type that fits it. -/
  | global {before after : List SelectionSet} {key : SelectionSet} (object : t.isObject)
      (notRoot : ∀ operation, schema.root? operation ≠ some t.name)
      (missing : patterns.types.get? t.name = none)
      (split : patterns.globals = before ++ key :: after) (fitting : fits schema key t)
      (earlier : ∀ pattern ∈ before, fits schema pattern t = false) :
      IsKnown registry patterns schema t ⟨none, some key⟩

theorem isKnown_of_leaf (hl : t.isLeaf) :
    IsKnown registry patterns schema t ⟨some (leafTypeOf registry t), none⟩ := by
  unfold leafTypeOf
  cases hr : registry.get? t.name with
  | some info => exact .registered hl hr
  | none =>
      unfold NamedType.isLeaf at hl
      cases hs : t.shape with
      | scalar url =>
          have he : unregistered t = ⟨t.name, some "str", some "str"⟩ := by
            simp [unregistered, NamedType.isEnum, hs, textType]
          exact he ▸ .scalar hs hr
      | enum values =>
          have he : unregistered t = ⟨t.name, some t.name, some "str"⟩ := by
            simp [unregistered, NamedType.isEnum, hs, textType]
          exact he ▸ .enum hs hr
      | _ => simp [hs] at hl

theorem not_mem_rootNames : t.name ∉ schema.rootNames ↔
    ∀ operation, schema.root? operation ≠ some t.name := by
  simp [Schema.rootNames, mem_all]

theorem isKnown_of_key (ho : t.isObject) (hr : t.name ∉ schema.rootNames) {key : SelectionSet}
    (hk : keyOf schema patterns t = some key) :
    IsKnown registry patterns schema t ⟨none, some key⟩ := by
  have hr := not_mem_rootNames.mp hr
  unfold keyOf at hk
  cases hp : patterns.types.get? t.name with
  | some own =>
      rw [hp] at hk
      cases hk
      exact .own ho hr hp
  | none =>
      rw [hp] at hk
      obtain ⟨hf, before, after, hs, hb⟩ := List.find?_eq_some_iff_append.mp hk
      exact .global ho hr hp hs hf fun pattern hm => by simpa using hb pattern hm

/-- What is known of a type is its row in one of the tables. -/
theorem IsKnown.cases_row (h : IsKnown registry patterns schema t m) :
    (t.isLeaf ∧ m = (leafRow registry t).2)
      ∨ ∃ key, t.isObject ∧ t.name ∉ schema.rootNames ∧ keyOf schema patterns t = some key
        ∧ m = ⟨none, some key⟩ := by
  cases h with
  | registered hl he => exact .inl ⟨hl, by simp [leafRow, leafTypeOf, he]⟩
  | scalar hs hm =>
      refine .inl ⟨by simp [NamedType.isLeaf, hs], ?_⟩
      simp [leafRow, leafTypeOf, hm, unregistered, NamedType.isEnum, hs, textType]
  | enum hs hm =>
      refine .inl ⟨by simp [NamedType.isLeaf, hs], ?_⟩
      simp [leafRow, leafTypeOf, hm, unregistered, NamedType.isEnum, hs, textType]
  | own ho hr hp => exact .inr ⟨_, ho, not_mem_rootNames.mpr hr, by simp [keyOf, hp], rfl⟩
  | @global before after key ho hr hp hs hf hb =>
      have hfind : (patterns.globals.find? fun pattern => fits schema pattern t) = some key :=
        List.find?_eq_some_iff_append.mpr ⟨hf, before, after, hs, fun p hm => by simp [hb p hm]⟩
      exact .inr ⟨key, ho, not_mem_rootNames.mpr hr, by simp [keyOf, hp, hfind], rfl⟩

theorem mem_rows : (name, m) ∈ (annotatedLeaves schema).map (leafRow registry)
      ++ (entities schema patterns).map entityRow ↔
    isIntrospectionType name = false
      ∧ ∃ t ∈ schema.types, t.name = name ∧ IsKnown registry patterns schema t m := by
  rw [List.mem_append]
  constructor
  · rintro (h | h)
    · obtain ⟨t, ht, he⟩ := List.mem_map.mp h
      cases he
      obtain ⟨hin, ht⟩ := List.mem_filter.mp ht
      obtain ⟨hl, hi⟩ := Bool.and_eq_true_iff.mp ht
      exact ⟨by simpa using hi, t, hin, rfl, isKnown_of_leaf hl⟩
    · obtain ⟨⟨_, key⟩, hkey, he⟩ := List.mem_map.mp h
      cases he
      obtain ⟨t, ht, hkey⟩ := List.mem_filterMap.mp hkey
      obtain ⟨key, hk, he⟩ := Option.map_eq_some_iff.mp hkey
      cases he
      obtain ⟨hin, ht⟩ := List.mem_filter.mp ht
      simp only [Bool.and_eq_true, Bool.not_eq_true', List.contains_eq_mem,
        decide_eq_false_iff_not] at ht
      exact ⟨ht.1.2, t, hin, rfl, isKnown_of_key ht.1.1 ht.2 hk⟩
  · rintro ⟨hi, t, hin, rfl, hknown⟩
    rcases hknown.cases_row with ⟨hl, rfl⟩ | ⟨key, ho, hr, hk, rfl⟩
    · exact .inl (List.mem_map.mpr ⟨t, List.mem_filter.mpr ⟨hin, by simp [hl, hi]⟩, rfl⟩)
    · have ht : t ∈ entityCandidates schema :=
        List.mem_filter.mpr ⟨hin, by simp [ho, hi, hr]⟩
      have hentity : (t.name, key) ∈ entities schema patterns :=
        List.mem_filterMap.mpr ⟨t, ht, by rw [hk]; rfl⟩
      exact .inr (List.mem_map.mpr ⟨_, hentity, rfl⟩)

end Known

end SdlAssembly.Annotated

namespace SdlAssembly.Model

open Grammar Annotation Schemas Annotated

/-- After what a model knows is attached to a schema, the entries are exactly what is known of its
types, one for each name. Attached the other way round, every type has the same. -/
theorem attach_exact {schema : Schema} (hn : schema.typeNames.Nodup) (model : TypeSystem) :
    (∀ name m, (model.attach schema).value.metadata.lookup name = some m ↔
        isIntrospectionType name = false
          ∧ ∃ t ∈ schema.types, t.name = name
            ∧ IsKnown model.leafTypes model.entityPatterns schema t m)
      ∧ ((model.attach schema).value.metadata.map Prod.fst).Nodup
      ∧ ∀ name, (AnnotatedSchema.attachLeafTypes model.leafTypes
          (AnnotatedSchema.attachEntityKeys model.entityPatterns
            { schema := schema }).value).metadata.lookup name =
        (model.attach schema).value.metadata.lookup name := by
  obtain ⟨hmetadata, hswapped⟩ := metadata_attached model.leafTypes model.entityPatterns hn
  have hnodup := nodup_map_fst_rows model.leafTypes model.entityPatterns hn
  have hperm : ((annotatedLeaves schema).map (leafRow model.leafTypes)
      ++ (entities schema model.entityPatterns).map entityRow).Perm
      ((entities schema model.entityPatterns).map entityRow
        ++ (annotatedLeaves schema).map (leafRow model.leafTypes)) := List.perm_append_comm
  unfold TypeSystem.attach
  rw [hmetadata, hswapped]
  refine ⟨fun name m => (mem_iff_lookup hnodup).symm.trans mem_rows, hnodup, fun name => ?_⟩
  refine Option.ext fun m => ?_
  rw [← mem_iff_lookup hnodup, ← mem_iff_lookup ((hperm.map _).nodup_iff.mp hnodup), hperm.mem_iff]

def bareKey (name : String) : SelectionSet := [.field none name [] [] none]

/-- A root type beside an object with the same field, and leaf types of both kinds. -/
def shop : Schema where
  types :=
    [⟨"Money", none, .scalar none⟩, ⟨"Unit", none, .enum []⟩,
      ⟨"Query", none, .object [] [{ name := "sku", type := .named "Unit" }]⟩,
      ⟨"Item", none, .object [] [{ name := "sku", type := .named "Unit" }]⟩]
  directives := []
  query := some "Query"

/-- A scalar that is registered, and two keys for every type. -/
def shopModel : TypeSystem where
  leafTypes := Registry.ofList [("Money", ⟨"Money", some "Decimal", none⟩)]
  entityPatterns := { globals := [bareKey "id", bareKey "sku"] }

/-- The item has the key that fits and the root type has none. -/
theorem attach_exact_shop : shop.typeNames.Nodup
    ∧ (shopModel.attach shop).value.metadata.lookup "Money" =
      some ⟨some ⟨"Money", some "Decimal", none⟩, none⟩
    ∧ (shopModel.attach shop).value.metadata.lookup "Unit" =
      some ⟨some ⟨"Unit", some "Unit", some "str"⟩, none⟩
    ∧ (shopModel.attach shop).value.metadata.lookup "Item" = some ⟨none, some (bareKey "sku")⟩
    ∧ (shopModel.attach shop).value.metadata.lookup "Query" = none := by
  have hn : shop.typeNames.Nodup := by decide
  have hexact := (attach_exact hn shopModel).1
  have hitem : ∀ operation, shop.root? operation ≠ some "Item" := fun operation => by
    cases operation <;> decide
  refine ⟨hn, (hexact _ _).mpr ⟨by decide, _, .head _, rfl, .registered rfl rfl⟩,
    (hexact _ _).mpr ⟨by decide, _, .tail _ (.head _), rfl, .enum rfl rfl⟩,
    (hexact _ _).mpr ⟨by decide, _, .tail _ (.tail _ (.tail _ (.head _))), rfl,
      @IsKnown.global _ _ _ _ [bareKey "id"] [] _ rfl hitem rfl rfl (by decide)
        (by decide)⟩, ?_⟩
  refine Option.eq_none_iff_forall_ne_some.mpr fun m hm => ?_
  obtain ⟨-, t, ht, hname, hknown⟩ := (hexact _ _).mp hm
  simp only [shop, List.mem_cons, List.not_mem_nil, or_false] at ht
  rcases ht with rfl | rfl | rfl | rfl
  · simp at hname
  · simp at hname
  · cases hknown with
    | registered hl _ => cases hl
    | scalar hs _ => cases hs
    | enum hs _ => cases hs
    | own _ hr _ => exact hr .query rfl
    | global _ hr _ _ _ _ => exact hr .query rfl
  · simp at hname

end SdlAssembly.Model
