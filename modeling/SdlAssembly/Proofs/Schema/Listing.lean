import SdlAssembly.Proofs.Schema.Building

/-!
# The types that a schema lists

A schema that is arranged lists what names stand for: each type that is not standard, and with it
every type that it leads to.
-/

namespace SdlAssembly.Schemas

open Grammar

/-- A schema whose types are what names stand for, none missing that is not standard or that is
referred to. -/
structure Schema.Lists (schema : Schema) (meaning : String → Option NamedType) : Prop where
  named : ∀ name t, meaning name = some t → t.name = name
  nodup : schema.typeNames.Nodup
  sound : ∀ t ∈ schema.types, meaning t.name = some t
  complete : ∀ name t, isStandardType name = false → meaning name = some t → t ∈ schema.types
  closed : ∀ t ∈ schema.types, ∀ name ∈ t.leadsTo, schema.type? name = meaning name
  roots : ∀ name ∈ schema.rootNames, schema.type? name = meaning name
  directives : ∀ d ∈ schema.directives, ∀ a ∈ d.arguments,
    schema.type? a.type.core = meaning a.type.core
  introspection : schema.type? introspectionRoot = meaning introspectionRoot

section Listing

variable {schema : Schema} {given : List NamedType} {name : String} {t : NamedType}

/-- Under a name that is not standard a schema lists what the name stands for. -/
theorem Schema.Lists.type?_eq {meaning : String → Option NamedType} (h : schema.Lists meaning)
    (hs : isStandardType name = false) : schema.type? name = meaning name := by
  cases hm : meaning name with
  | some t =>
      exact (find?_eq_some_iff h.nodup).mpr ⟨h.complete name t hs hm, h.named name t hm⟩
  | none =>
      refine Option.eq_none_iff_forall_ne_some.mpr fun t ht => ?_
      obtain ⟨hin, rfl⟩ := (find?_eq_some_iff h.nodup).mp ht
      rw [h.sound t hin] at hm
      cases hm

theorem Arranged.type?_eq {arranged : Schema} (h : Arranged schema given arranged)
    (hin : ∀ t, target? given name = some t → t ∈ arranged.types) :
    arranged.type? name = target? given name := by
  cases ht : target? given name with
  | some t => exact h.type?_eq_some.mpr ⟨hin t ht, target?_name ht⟩
  | none =>
      cases hf : arranged.type? name with
      | none => rfl
      | some t =>
          obtain ⟨hm, rfl⟩ := h.type?_eq_some.mp hf
          rw [h.target t hm] at ht
          cases ht

theorem arrange_lists (schema : Schema) (hd : (given.map NamedType.name).Nodup) :
    (schema.arrange given).Lists (target? given) := by
  have h := arrange_arranged schema hd
  refine ⟨fun name t => target?_name, h.nodup, h.target, ?_, ?_, ?_, ?_,
    h.type?_eq h.introspection⟩
  · exact fun name t hs ht => h.kept (mem_of_target? ht hs)
  · exact fun t ht name hn => h.type?_eq (h.closed t ht name hn)
  · exact fun name hn => h.type?_eq (h.roots name hn)
  · exact fun d hd a ha => h.type?_eq (h.directives d hd a ha)

theorem target?_standard (hg : Grounded given) (hs : isStandardType name) :
    target? given name = standardType? name := by
  cases hf : given.find? fun t => t.name == name with
  | none => rw [target?, hf, Option.none_or]
  | some t =>
      obtain ⟨hm, rfl⟩ := (find?_eq_some_iff hg.nodup).mp hf
      rw [target?, hf, Option.some_or, hg.standard t hm hs]

/-- What a schema lists stands for the same as what it was made from. -/
theorem Schema.Lists.target?_types (h : schema.Lists (target? given)) (hg : Grounded given) :
    target? schema.types = target? given := by
  have hsound : ∀ name t, schema.types.find? (fun t => t.name == name) = some t →
      target? given name = some t := by
    intro name t hf
    obtain ⟨hm, rfl⟩ := (find?_eq_some_iff h.nodup).mp hf
    exact h.sound t hm
  funext name
  cases hs : isStandardType name with
  | true =>
      rw [target?_standard hg hs]
      cases hf : schema.types.find? fun t => t.name == name with
      | none => rw [target?, hf, Option.none_or]
      | some t => rw [target?, hf, Option.some_or, ← hsound name t hf, target?_standard hg hs]
  | false =>
      rw [target?, standardType?_eq_none hs, Option.or_none]
      cases ht : target? given name with
      | none =>
          cases hf : schema.types.find? fun t => t.name == name with
          | none => rfl
          | some t =>
              rw [hsound name t hf] at ht
              cases ht
      | some t =>
          exact (find?_eq_some_iff h.nodup).mpr ⟨h.complete name t hs ht, target?_name ht⟩

/-- Arranging once more changes no type. -/
theorem Schema.Lists.arrange (h : schema.Lists (target? given)) (hg : Grounded given)
    (schema' : Schema) : (schema'.arrange schema.types).Lists (target? given) :=
  h.target?_types hg ▸ arrange_lists schema' h.nodup

/-- Assigning root types changes no type. -/
theorem Schema.Lists.withDefaultRoots (h : schema.Lists (target? given)) (hg : Grounded given) :
    schema.withDefaultRoots.Lists (target? given) := by
  unfold Schema.withDefaultRoots
  split
  · exact h
  · exact h.arrange hg _

end Listing

/-! ## Types for introspection -/

/-- Standard names stand for the standard types. -/
def KeepsStandard (meaning : String → Option NamedType) : Prop :=
  ∀ name, isStandardType name → meaning name = standardType? name

theorem keepsStandard_target? {given : List NamedType} (hg : Grounded given) :
    KeepsStandard (target? given) := fun _ => target?_standard hg

/-- The types for introspection that so many steps lead to. -/
def introspected : Nat → List String
  | 0 => [introspectionRoot]
  | steps + 1 => introspected steps ++ (introspected steps).flatMap fun name =>
    ((standardType? name).map NamedType.leadsTo).getD []

theorem standard_of_leadsTo : ∀ t ∈ standardTypes, ∀ name ∈ t.leadsTo, isStandardType name := by
  decide

theorem isInputObject_standard : ∀ t ∈ standardTypes, t.isInputObject = false := by decide

/-- A schema lists the types for introspection. -/
theorem Schema.Lists.type?_introspected {schema : Schema} {meaning : String → Option NamedType}
    (h : schema.Lists meaning) (hk : KeepsStandard meaning) (steps : Nat) :
    ∀ name ∈ introspected steps, schema.type? name = standardType? name := by
  induction steps with
  | zero =>
      intro name hn
      rw [List.mem_singleton.mp hn, h.introspection]
      exact hk _ (by decide)
  | succ steps ih =>
      intro name hn
      rcases List.mem_append.mp hn with hn | hn
      · exact ih name hn
      · obtain ⟨earlier, he, hn⟩ := List.mem_flatMap.mp hn
        cases ht : standardType? earlier with
        | none => simp [ht] at hn
        | some t =>
            rw [ht] at hn
            have hlisted : schema.type? earlier = some t := (ih earlier he).trans ht
            have hmem : t ∈ schema.types := List.mem_of_find?_eq_some hlisted
            rw [h.closed t hmem name hn]
            exact hk name (standard_of_leadsTo t (List.mem_of_find?_eq_some ht) name hn)

theorem Schema.Lists.type?_introspection {schema : Schema} {meaning : String → Option NamedType}
    (h : schema.Lists meaning) (hk : KeepsStandard meaning) {name : String}
    (hi : isIntrospectionType name) : (schema.type? name).isSome := by
  have hall : ∀ name ∈ introspectionTypes, name ∈ introspected 2 ∧ isStandardType name := by decide
  obtain ⟨hin, hs⟩ := hall name (List.contains_iff_mem.mp hi)
  rw [h.type?_introspected hk 2 name hin, standardType?_isSome, hs]

/-! ## Schemas of given types -/

theorem grounded_ofTypes {given : List NamedType} (hd : (given.map NamedType.name).Nodup)
    (hs : ∀ t ∈ given, isStandardType t.name = false) :
    Grounded (Schema.ofTypes given).types := by
  have h : (Schema.ofTypes given).Lists (target? given) := arrange_lists _ hd
  refine ⟨h.nodup, fun t ht hk => ?_⟩
  have hg : Grounded given := ⟨hd, fun t ht hk => by simp [hs t ht] at hk⟩
  rw [← target?_standard hg hk, h.sound t ht]

theorem find?_ofTypes {given : List NamedType} (hd : (given.map NamedType.name).Nodup)
    {name : String} (hs : isStandardType name = false) :
    (Schema.ofTypes given).types.find? (fun t => t.name == name) =
      given.find? fun t => t.name == name := by
  have h : (Schema.ofTypes given).Lists (target? given) := arrange_lists _ hd
  have hg : target? given name = given.find? fun t => t.name == name := by
    rw [target?, standardType?_eq_none hs, Option.or_none]
  cases hf : given.find? fun t => t.name == name with
  | some t =>
      obtain ⟨hm, rfl⟩ := (find?_eq_some_iff hd).mp hf
      exact (find?_eq_some_iff h.nodup).mpr ⟨h.complete _ t hs (hg.trans hf), rfl⟩
  | none =>
      refine List.find?_eq_none.mpr fun t ht he => ?_
      obtain rfl := eq_of_beq he
      rw [h.sound t ht, hf] at hg
      cases hg

/-- The types for introspection lead to each other only. -/
theorem introspected_closed : ∀ name ∈ introspected 2,
    ((standardType? name).map NamedType.leadsTo).getD [] ⊆ introspected 2 := by
  decide

/-- Types that lead nowhere bring no standard types along but those for introspection. -/
theorem find?_ofTypes_unlisted {given : List NamedType} (hd : (given.map NamedType.name).Nodup)
    (hg : ∀ t ∈ given, isStandardType t.name = false ∧ t.leadsTo = []) {name : String}
    (hs : isStandardType name) (hn : name ∉ introspected 2) :
    (Schema.ofTypes given).types.find? (fun t => t.name == name) = none := by
  have hgrounded : Grounded given := ⟨hd, fun t ht hk => by simp [(hg t ht).1] at hk⟩
  have hlisted : ∀ t ∈ (Schema.ofTypes given).types,
      isStandardType t.name → t.name ∈ introspected 2 := by
    refine arrange_within (p := fun name => isStandardType name → name ∈ introspected 2) _
      (fun name t hn ht next hnext _ => ?_) (fun t ht hk => ?_) fun name hn _ => ?_
    · cases hk : isStandardType name with
      | false =>
          rw [(hg t (mem_of_target? ht hk)).2] at hnext
          cases hnext
      | true =>
          rw [target?_standard hgrounded hk] at ht
          have hclosed := introspected_closed name (hn hk)
          rw [ht] at hclosed
          exact hclosed hnext
    · simp [(hg t ht).1] at hk
    · have hall : ∀ name ∈ Schema.others { types := [], directives := standardDirectives },
          name ∈ introspected 2 := by decide
      exact hall name hn
  refine List.find?_eq_none.mpr fun t ht he => ?_
  obtain rfl := eq_of_beq he
  exact hn (hlisted t ht hs)

end SdlAssembly.Schemas
