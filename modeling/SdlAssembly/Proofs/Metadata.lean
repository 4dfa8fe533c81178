import SdlAssembly.Model.Compose
import SdlAssembly.Proofs.Schema.Sources

/-!
# Metadata of annotated schemas

Every name has one entry of metadata, the schema stays as it was, and every key is one of the
patterns that the model knows.
-/

namespace SdlAssembly.Annotated

open Grammar Annotation Schemas

/-! ## Entries -/

section Entries

variable {metadata : List (String × Metadata)} {f : Metadata → Metadata} {name : String}

theorem map_fst_change : (change f name metadata).map Prod.fst =
    if name ∈ metadata.map Prod.fst then metadata.map Prod.fst
    else metadata.map Prod.fst ++ [name] := by
  induction metadata with
  | nil => rfl
  | cons pair metadata ih =>
      obtain ⟨key, m⟩ := pair
      unfold change
      by_cases h : key = name
      · simp [h]
      · have hname : name ≠ key := fun he => h he.symm
        simp only [beq_iff_eq, h, ↓reduceIte, List.map_cons, ih, List.mem_cons, hname, false_or]
        split <;> rfl

theorem nodup_change (h : (metadata.map Prod.fst).Nodup) :
    ((change f name metadata).map Prod.fst).Nodup := by
  rw [map_fst_change]
  split
  · exact h
  · rename_i hn
    refine List.nodup_append.mpr ⟨h, by simp, ?_⟩
    rintro a ha b hb rfl
    exact hn (List.mem_singleton.mp hb ▸ ha)

/-- What holds of all entries holds after a change that keeps it and that brings it about anew. -/
theorem forall_change {P : Metadata → Prop} (h : ∀ pair ∈ metadata, P pair.2) (hnew : P (f {}))
    (hf : ∀ m, P m → P (f m)) : ∀ pair ∈ change f name metadata, P pair.2 := by
  induction metadata with
  | nil => simpa [change] using hnew
  | cons pair metadata ih =>
      obtain ⟨key, m⟩ := pair
      obtain ⟨hm, h⟩ := List.forall_mem_cons.mp h
      unfold change
      split
      · exact List.forall_mem_cons.mpr ⟨hf m hm, h⟩
      · exact List.forall_mem_cons.mpr ⟨hm, ih h⟩

/-- The directives that are looked up for a name are those of its metadata. -/
theorem lookup_directives (h : (metadata.map Prod.fst).Nodup) :
    ((((metadata.map fun (name, m) => (name, m.directives)).filter fun (_, directives) =>
      !directives.isEmpty).lookup name).getD []) = ((metadata.lookup name).getD {}).directives := by
  induction metadata with
  | nil => rfl
  | cons pair metadata ih =>
      obtain ⟨key, m⟩ := pair
      obtain ⟨hk, h⟩ := List.nodup_cons.mp h
      rw [lookup_cons_if, List.map_cons]
      by_cases hd : m.directives = []
      · rw [List.filter_cons_of_neg (by simp [hd]), ih h]
        split
        · rename_i he
          have hnone : metadata.lookup name = none :=
            List.lookup_eq_none_iff.mpr fun pair hp => by
              have hin : pair.1 ∈ metadata.map Prod.fst := List.mem_map_of_mem hp
              have hne : name ≠ pair.1 := fun hn => hk (by rwa [← he, hn])
              simpa using hne
          rw [hnone, Option.getD_some, hd]
          rfl
        · rfl
      · rw [List.filter_cons_of_pos (by simp [hd]), lookup_cons_if]
        split
        · rfl
        · exact ih h

end Entries

/-! ## Attaching -/

/-- Metadata of a schema with one entry for a name, whose keys are all of a kind. -/
structure AnnotatedSchema.Holds (annotated : AnnotatedSchema) (schema : Schema)
    (Kind : SelectionSet → Prop) : Prop where
  schema : annotated.schema = schema
  nodup : (annotated.metadata.map Prod.fst).Nodup
  keys : ∀ pair ∈ annotated.metadata, ∀ key ∈ pair.2.entityKey, Kind key

namespace AnnotatedSchema.Holds

variable {annotated : AnnotatedSchema} {schema : Schema} {Kind : SelectionSet → Prop}

theorem modify (h : annotated.Holds schema Kind) {name : String} {f : Metadata → Metadata}
    (hf : ∀ m, (∀ key ∈ m.entityKey, Kind key) → ∀ key ∈ (f m).entityKey, Kind key) :
    (annotated.modify name f).Holds schema Kind :=
  ⟨h.schema, nodup_change h.nodup,
    forall_change (P := fun m => ∀ key ∈ m.entityKey, Kind key) h.keys (hf {} (by simp)) hf⟩

theorem setLeafType (h : annotated.Holds schema Kind) (name : String) (info : LeafType) :
    (annotated.setLeafType name info).Holds schema Kind := h.modify fun _ hm => hm

theorem setEntityKey (h : annotated.Holds schema Kind) (name : String) {key : SelectionSet}
    (hk : Kind key) : (annotated.setEntityKey name key).Holds schema Kind :=
  h.modify fun _ _ other ho => by
    cases ho
    exact hk

theorem attachLeafTypes (h : annotated.Holds schema Kind) (registry : LeafTypes) :
    (attachLeafTypes registry annotated).Holds schema Kind := by
  unfold AnnotatedSchema.attachLeafTypes
  generalize annotatedLeaves annotated.schema = leaves
  induction leaves generalizing annotated with
  | nil => exact h
  | cons t leaves ih => exact ih (h.setLeafType t.name _)

theorem attachEntityKeys (h : annotated.Holds schema Kind) {patterns : EntityPatterns}
    (hk : ∀ pair ∈ entities annotated.schema patterns, Kind pair.2) :
    (annotated.attachEntityKeys patterns).value.Holds schema Kind := by
  unfold AnnotatedSchema.attachEntityKeys
  have hfold : ∀ (pairs : List (String × SelectionSet)) (t : Logged AnnotatedSchema),
      (∀ pair ∈ pairs, Kind pair.2) → t.value.Holds schema Kind →
      (pairs.foldl (fun t pair =>
        (t.map fun annotated => annotated.setEntityKey pair.1 pair.2).note .debug
          ("Type '" ++ pair.1 ++ "' is an entity keyed by '" ++ formatSelectionSet pair.2 ++ "'"))
        t).value.Holds schema Kind := by
    intro pairs
    induction pairs with
    | nil => exact fun t _ ht => ht
    | cons pair pairs ih =>
        intro t hp ht
        obtain ⟨hpair, hp⟩ := List.forall_mem_cons.mp hp
        exact ih _ hp (ht.setEntityKey pair.1 hpair)
  exact hfold _ _ hk h

theorem metadataOf (h : annotated.Holds schema Kind) (name : String) :
    ∀ key ∈ (annotated.metadataOf name).entityKey, Kind key := by
  unfold AnnotatedSchema.metadataOf
  cases hl : annotated.metadata.lookup name with
  | none => simp
  | some m => exact h.keys _ (mem_of_lookup hl)

theorem directives (h : annotated.Holds schema Kind) (name : String) :
    ((annotated.directives.lookup name).getD []) = (annotated.metadataOf name).directives :=
  lookup_directives h.nodup

end AnnotatedSchema.Holds

/-- A key of an entity is a pattern. -/
theorem key_of_mem_entities {schema : Schema} {patterns : EntityPatterns}
    {pair : String × SelectionSet} (h : pair ∈ entities schema patterns) :
    pair.2 ∈ patterns.globals ∨ pair.2 ∈ patterns.types.values := by
  obtain ⟨t, -, h⟩ := List.mem_filterMap.mp h
  obtain ⟨key, hk, rfl⟩ := Option.map_eq_some_iff.mp h
  unfold keyOf at hk
  cases ht : patterns.types.get? t.name with
  | some found =>
      rw [ht] at hk
      cases hk
      exact .inr (List.mem_map_of_mem (mem_of_lookup ht))
  | none =>
      rw [ht] at hk
      exact .inl (List.mem_of_find?_eq_some hk)

end SdlAssembly.Annotated
