import SdlAssembly.Proofs.Schema.Arranging

/-!
# The source of each name

A name stands for its standard type, or else for its last definition, or else for the type that is
there already.
-/

namespace SdlAssembly.Schemas

open Grammar

/-! ## Values by name -/

section Pairs

variable {α β : Type} {name other : String} {value : α} {pairs : List (String × α)}

theorem lookup_cons_if (key : String) :
    ((key, value) :: pairs).lookup name = if name = key then some value else pairs.lookup name := by
  rw [List.lookup_cons]
  by_cases h : name = key
  · simp [h]
  · rw [beq_eq_false_iff_ne.mpr h, if_neg h]

theorem lookup_put : (put name value pairs).lookup other =
    if other = name then some value else pairs.lookup other := by
  induction pairs with
  | nil => exact lookup_cons_if name
  | cons pair pairs ih =>
      obtain ⟨key, old⟩ := pair
      unfold put
      by_cases hk : key = name
      · simp only [hk, beq_self_eq_true, ↓reduceIte, lookup_cons_if]
        split <;> rfl
      · rw [if_neg (by simpa using hk), lookup_cons_if, lookup_cons_if, ih]
        by_cases ho : other = key
        · simp [ho, hk]
        · simp [ho]

theorem map_fst_put : (put name value pairs).map Prod.fst =
    if name ∈ pairs.map Prod.fst then pairs.map Prod.fst else pairs.map Prod.fst ++ [name] := by
  induction pairs with
  | nil => rfl
  | cons pair pairs ih =>
      obtain ⟨key, old⟩ := pair
      unfold put
      by_cases hk : key = name
      · simp [hk]
      · have hne : name ≠ key := fun he => hk he.symm
        rw [if_neg (by simpa using hk), List.map_cons, ih]
        by_cases hm : name ∈ pairs.map Prod.fst <;> simp [hm, hne]

theorem nodup_put (h : (pairs.map Prod.fst).Nodup) :
    ((put name value pairs).map Prod.fst).Nodup := by
  rw [map_fst_put]
  split
  · exact h
  · rename_i hm
    refine List.nodup_append.mpr ⟨h, by simp, ?_⟩
    intro a ha b hb
    rw [List.mem_singleton.mp hb]
    rintro rfl
    exact hm ha

theorem mem_of_lookup (h : pairs.lookup name = some value) : (name, value) ∈ pairs := by
  induction pairs with
  | nil => cases h
  | cons pair pairs ih =>
      obtain ⟨key, old⟩ := pair
      rw [lookup_cons_if] at h
      split at h
      · cases h
        simp [*]
      · exact List.mem_cons_of_mem _ (ih h)

/-- With keys that differ, each pair is found by its key. -/
theorem mem_iff_lookup (h : (pairs.map Prod.fst).Nodup) :
    (name, value) ∈ pairs ↔ pairs.lookup name = some value := by
  refine ⟨fun hm => ?_, mem_of_lookup⟩
  induction pairs with
  | nil => cases hm
  | cons pair pairs ih =>
      obtain ⟨key, old⟩ := pair
      obtain ⟨hk, h⟩ := List.nodup_cons.mp h
      rw [lookup_cons_if]
      rcases List.mem_cons.mp hm with he | hm
      · cases he
        rw [if_pos rfl]
      · have hne : name ≠ key := fun he => hk (he ▸ List.mem_map.mpr ⟨_, hm, rfl⟩)
        rw [if_neg hne]
        exact ih h hm

theorem forall_put {P : String → α → Prop} (hp : ∀ pair ∈ pairs, P pair.1 pair.2)
    (hn : P name value) : ∀ pair ∈ put name value pairs, P pair.1 pair.2 := by
  induction pairs with
  | nil => simpa [put] using hn
  | cons pair pairs ih =>
      obtain ⟨key, old⟩ := pair
      obtain ⟨hk, hp⟩ := List.forall_mem_cons.mp hp
      unfold put
      split
      · rename_i he
        exact List.forall_mem_cons.mpr ⟨eq_of_beq he ▸ hn, hp⟩
      · exact List.forall_mem_cons.mpr ⟨hk, ih hp⟩

/-- Items that are put one after the other under their names. -/
def putAll (key : β → String) (value : β → α) (items : List β) (pairs : List (String × α)) :
    List (String × α) :=
  items.foldl (fun pairs item => put (key item) (value item) pairs) pairs

variable {key : β → String} {value : β → α} {items : List β}

theorem lookup_putAll : (putAll key value items pairs).lookup name =
    ((items.reverse.find? fun item => key item == name).map value).or (pairs.lookup name) := by
  induction items generalizing pairs with
  | nil => rfl
  | cons item items ih =>
      rw [putAll, List.foldl_cons, ← putAll, ih, lookup_put, List.reverse_cons, List.find?_append]
      cases items.reverse.find? fun item => key item == name with
      | some found => rfl
      | none =>
          by_cases hk : name = key item
          · simp [hk]
          · have hne : (key item == name) = false := beq_eq_false_iff_ne.mpr (Ne.symm hk)
            simp [hk, hne]

theorem nodup_putAll (h : (pairs.map Prod.fst).Nodup) :
    ((putAll key value items pairs).map Prod.fst).Nodup := by
  induction items generalizing pairs with
  | nil => exact h
  | cons item items ih => exact ih (nodup_put h)

/-- What holds of the pairs and of each item under its name holds of all pairs. -/
theorem forall_putAll {P : String → α → Prop} (hp : ∀ pair ∈ pairs, P pair.1 pair.2)
    (hi : ∀ item ∈ items, P (key item) (value item)) :
    ∀ pair ∈ putAll key value items pairs, P pair.1 pair.2 := by
  induction items generalizing pairs with
  | nil => exact hp
  | cons item items ih =>
      obtain ⟨hitem, hi⟩ := List.forall_mem_cons.mp hi
      exact ih (forall_put hp hitem) hi

end Pairs

/-! ## Sources by name -/

/-- The name of what a source gives. -/
def TypeSource.name : TypeSource → String
  | .ready t => t.name
  | .written node _ => node.name

/-- The definition of a type that counts. -/
def lastDefinition? (definitions : List Definition) (name : String) : Option TypeNode :=
  (typeDefinitions definitions).reverse.find? fun node => node.name == name

section Sources

variable {existing : List NamedType} {definitions : List Definition} {name : String}

theorem mem_typeDefinitions {node : TypeNode} :
    node ∈ typeDefinitions definitions ↔ .type node ∈ definitions := by
  rw [typeDefinitions, List.mem_filterMap]
  constructor
  · rintro ⟨d, hd, ht⟩
    split at ht
    · cases ht
      exact hd
    · cases ht
  · exact fun hd => ⟨_, hd, rfl⟩

theorem mem_directiveDefinitions {node : DirectiveDefinition} :
    node ∈ directiveDefinitions definitions ↔ .directive node ∈ definitions := by
  rw [directiveDefinitions, List.mem_filterMap]
  constructor
  · rintro ⟨d, hd, ht⟩
    split at ht
    · cases ht
      exact hd
    · cases ht
  · exact fun hd => ⟨_, hd, rfl⟩

theorem lastDefinition?_eq_some (h : ((typeDefinitions definitions).map TypeNode.name).Nodup)
    {node : TypeNode} : lastDefinition? definitions name = some node ↔
      node ∈ typeDefinitions definitions ∧ node.name = name := by
  rw [lastDefinition?, find?_key, List.mem_reverse]
  rwa [List.map_reverse, (List.reverse_perm _).nodup_iff]

theorem standardType?_name {t : NamedType} (h : standardType? name = some t) : t.name = name :=
  find?_name h

theorem standardType?_isSome : (standardType? name).isSome = isStandardType name := by
  rw [Bool.eq_iff_iff, standardType?, List.find?_isSome, isStandardType_iff]
  simp

theorem isStandardType_of_standardType? {t : NamedType} (h : standardType? name = some t) :
    isStandardType name := by
  rw [← standardType?_isSome, h]
  rfl

theorem sourceOf_name (extensions : List TypeNode) (node : TypeNode) :
    (sourceOf extensions node).name = node.name := by
  unfold sourceOf
  split
  · rename_i t ht
    exact standardType?_name ht
  · rfl

theorem lookup_ready (existing : List NamedType) (name : String) :
    (existing.map fun t => (t.name, TypeSource.ready t)).lookup name =
      (existing.find? fun t => t.name == name).map .ready := by
  induction existing with
  | nil => rfl
  | cons t existing ih =>
      rw [List.map_cons, lookup_cons_if, List.find?_cons, ih]
      by_cases h : name = t.name
      · simp [h]
      · have hne : (t.name == name) = false := beq_eq_false_iff_ne.mpr (Ne.symm h)
        simp [h, hne]

theorem sourcesOf_eq (existing : List NamedType) (definitions : List Definition) :
    sourcesOf existing definitions =
      putAll TypeNode.name (sourceOf (typeExtensions definitions)) (typeDefinitions definitions)
        (existing.map fun t => (t.name, .ready t)) := rfl

theorem nodup_sourcesOf (definitions : List Definition)
    (h : (existing.map NamedType.name).Nodup) :
    ((sourcesOf existing definitions).map Prod.fst).Nodup := by
  rw [sourcesOf_eq]
  exact nodup_putAll (by simpa [Function.comp_def] using h)

/-- Every source stands under its own name. -/
theorem name_of_mem_sourcesOf : ∀ pair ∈ sourcesOf existing definitions, pair.2.name = pair.1 := by
  rw [sourcesOf_eq]
  refine forall_putAll (P := fun key (source : TypeSource) => source.name = key) ?_ fun node _ =>
    sourceOf_name _ node
  simp [TypeSource.name]

theorem find?_of_standard {sources : Sources} {t : NamedType} (h : standardType? name = some t) :
    sources.find? name = some (.ready t) := by
  rw [Sources.find?, h]

theorem find?_eq_lookup {sources : Sources} (h : isStandardType name = false) :
    sources.find? name = sources.lookup name := by
  rw [Sources.find?, standardType?_eq_none h]

/-- The types there are at first: each name once, the standard types as they are. -/
structure Grounded (types : List NamedType) : Prop where
  nodup : (types.map NamedType.name).Nodup
  standard : ∀ t ∈ types, isStandardType t.name → standardType? t.name = some t

/-- Standard names keep their standard types. -/
theorem standard_of_mem_sourcesOf (h : Grounded existing) :
    ∀ pair ∈ sourcesOf existing definitions, ∀ t, standardType? pair.1 = some t →
      pair.2 = .ready t := by
  rw [sourcesOf_eq]
  refine forall_putAll (P := fun key (source : TypeSource) => ∀ t, standardType? key = some t →
    source = .ready t) ?_ ?_
  · intro pair hm standard hs
    obtain ⟨t, ht, rfl⟩ := List.mem_map.mp hm
    rw [h.standard t ht (isStandardType_of_standardType? hs)] at hs
    cases hs
    rfl
  · intro node _ standard hs
    rw [sourceOf, hs]

/-- A name that is not standard stands for its last definition, or for a type there already. -/
theorem find?_sourcesOf (h : isStandardType name = false) :
    (sourcesOf existing definitions).find? name =
      ((lastDefinition? definitions name).map fun node => TypeSource.written node
          ((typeExtensions definitions).filter fun e => e.name == node.name)).or
        ((existing.find? fun t => t.name == name).map .ready) := by
  rw [find?_eq_lookup h, sourcesOf_eq, lookup_putAll, lookup_ready, ← lastDefinition?]
  cases hl : lastDefinition? definitions name with
  | none => rfl
  | some node =>
      have hn : node.name = name :=
        eq_of_beq (List.find?_some (p := fun (node : TypeNode) => node.name == name) hl)
      rw [Option.map_some, Option.map_some, sourceOf, standardType?_eq_none (hn ▸ h)]

theorem check_eq_ok {sources : Sources} {type : TypeRef} :
    sources.check type = .ok () ↔ (sources.find? type.core).isSome := by
  unfold Sources.check
  by_cases h : (sources.find? type.core).isSome
  · rw [if_pos h]
    exact ⟨fun _ => h, fun _ => rfl⟩
  · rw [if_neg h]
    exact ⟨fun he => (nomatch he), fun hk => (h hk).elim⟩

theorem knownNames_eq_ok {sources : Sources} {names names' : List String} :
    knownNames sources names = .ok names' ↔
      (∀ name ∈ names, (sources.find? name).isSome) ∧ names' = names := by
  unfold knownNames
  constructor
  · intro h
    obtain ⟨⟨⟩, hk, h⟩ := Except.bind_eq_ok h
    cases h
    exact ⟨fun name hm => check_eq_ok.mp (Except.forM_eq_ok.mp hk name hm), rfl⟩
  · rintro ⟨hk, rfl⟩
    exact Except.bind_of_ok (Except.forM_eq_ok.mpr fun name hm => check_eq_ok.mpr (hk name hm))

end Sources

end SdlAssembly.Schemas
