import SdlAssembly.Proofs.PlaceholderSchemas
import SdlAssembly.Proofs.Schema.Rooting

/-!
# Assigning root types

A schema that lacks root types is arranged once more when it gets them. It lists all types that it
leads to, so each of them finds its place taken, and nothing but the root types changes.
-/

namespace SdlAssembly.Schemas

open Grammar

/-! ## Orders that stay -/

section Staying

variable {type? : String → Option NamedType} {seen names : List String} {name : String}

theorem reach_of_mem (fuel : Nat) (h : name ∈ seen) : reach type? fuel seen name = seen := by
  cases fuel with
  | zero => rfl
  | succ fuel => rw [reach, if_pos (List.contains_iff_mem.mpr h)]

theorem reach_of_none (fuel : Nat) (h : type? name = none) : reach type? fuel seen name = seen := by
  cases fuel with
  | zero => rfl
  | succ fuel =>
      rw [reach]
      split
      · rfl
      · rw [h]

/-- Names that are seen, or stand for nothing, add nothing. -/
theorem foldl_reach_of_seen (fuel : Nat)
    (h : ∀ name ∈ names, (type? name).isSome → name ∈ seen) :
    names.foldl (reach type? fuel) seen = seen := by
  induction names with
  | nil => rfl
  | cons name names ih =>
      obtain ⟨hname, h⟩ := List.forall_mem_cons.mp h
      have hfirst : reach type? fuel seen name = seen := by
        cases ht : type? name with
        | none => exact reach_of_none fuel ht
        | some t => exact reach_of_mem fuel (hname (by rw [ht]; rfl))
      rw [List.foldl_cons, hfirst]
      exact ih h

/-- A name whose turn comes goes behind the names that had theirs. -/
theorem turns_of_closed (fuel : Nat) (before after : List String)
    (hd : (before ++ after).Nodup) (hk : ∀ name ∈ after, (type? name).isSome)
    (hc : ∀ name ∈ before ++ after, ClosedAt type? (before ++ after) name) :
    turns type? (fuel + 1) after (after ++ before) = before ++ after := by
  induction after generalizing before with
  | nil => simp [turns]
  | cons name after ih =>
      obtain ⟨t, ht⟩ := Option.isSome_iff_exists.mp (hk name List.mem_cons_self)
      have happend : before ++ [name] ++ after = before ++ name :: after :=
        (List.append_cons before name after).symm
      have hout : name ∉ after ++ before := by
        have hperm : (name :: (after ++ before)).Perm (before ++ name :: after) :=
          @List.perm_append_comm _ (name :: after) _
        exact (List.nodup_cons.mp (hperm.nodup_iff.mpr hd)).1
      have hreach : reach type? (fuel + 1) (after ++ before) name = after ++ (before ++ [name]) := by
        rw [reach, if_neg (by simpa using hout), ht]
        dsimp only
        rw [foldl_reach_of_seen fuel, List.append_assoc]
        intro next hn hs
        rcases List.mem_append.mp (hc name (by simp) t ht next hn hs) with hm | hm
        · simp [hm]
        · rcases List.mem_cons.mp hm with rfl | hm
          · simp
          · simp [hm]
      calc turns type? (fuel + 1) (name :: after) (name :: after ++ before)
          = turns type? (fuel + 1) after (reach type? (fuel + 1) (after ++ before) name) := by
            rw [turns, List.foldl_cons, List.cons_append, List.erase_cons_head]
            rfl
        _ = turns type? (fuel + 1) after (after ++ (before ++ [name])) := by rw [hreach]
        _ = before ++ [name] ++ after :=
            ih (before ++ [name]) (happend ▸ hd) (fun x hx => hk x (List.mem_cons_of_mem _ hx))
              (happend ▸ hc)
        _ = before ++ name :: after := happend

/-- Names that lead to each other only are in their order. -/
theorem orderOfTypes_of_closed (fuel : Nat) (others : List String) (hd : names.Nodup)
    (hk : ∀ name ∈ names, (type? name).isSome) (hc : ∀ name ∈ names, ClosedAt type? names name)
    (ho : ∀ name ∈ others, (type? name).isSome → name ∈ names) :
    orderOfTypes type? (fuel + 1) names others = names := by
  have hturns := turns_of_closed fuel [] names hd hk hc
  rw [List.append_nil] at hturns
  have hturns : turns type? (fuel + 1) names names = names := hturns
  calc orderOfTypes type? (fuel + 1) names others
      = others.foldl (reach type? (fuel + 1)) (turns type? (fuel + 1) names names) := rfl
    _ = names := by rw [hturns, foldl_reach_of_seen _ ho]

end Staying

/-! ## Complete schemas -/

/-- The names that a schema refers to. -/
def Schema.references (schema : Schema) : List String :=
  schema.types.flatMap NamedType.leadsTo ++ (schema.rootNames
    ++ schema.directives.flatMap (fun d => d.arguments.map fun argument => argument.type.core)
    ++ [introspectionRoot])

/-- A schema as it is made: its types have names of their own, and the standard types that it refers
to are among them. -/
structure Schema.Complete (schema : Schema) : Prop where
  nodup : schema.typeNames.Nodup
  listed : ∀ name ∈ schema.references, isStandardType name → name ∈ schema.typeNames

section Completeness

variable {schema : Schema} {given : List NamedType} {name : String}

/-- What a name stands for is listed, if the schema refers to it. -/
theorem Schema.Complete.mem_typeNames (h : schema.Complete) (hn : name ∈ schema.references)
    (ht : (target? schema.types name).isSome) : name ∈ schema.typeNames := by
  cases hs : isStandardType name with
  | true => exact h.listed name hn hs
  | false =>
      obtain ⟨t, ht⟩ := Option.isSome_iff_exists.mp ht
      exact target?_name ht ▸ List.mem_map_of_mem (mem_of_target? ht hs)

theorem isSome_target?_of_standard (hs : isStandardType name) : (target? given name).isSome := by
  rw [target?, Option.isSome_or, standardType?_isSome, hs, Bool.or_true]

/-- Arranging makes schemas complete. -/
theorem arrange_complete (schema : Schema) (hd : (given.map NamedType.name).Nodup) :
    (schema.arrange given).Complete := by
  have h := arrange_arranged schema hd
  have hmem : ∀ {name t}, target? given name = some t → t ∈ (schema.arrange given).types →
      name ∈ (schema.arrange given).typeNames := by
    intro name t ht hm
    exact target?_name ht ▸ List.mem_map_of_mem hm
  refine ⟨h.nodup, fun name hn hs => ?_⟩
  obtain ⟨t, ht⟩ : ∃ t, target? given name = some t :=
    Option.isSome_iff_exists.mp (isSome_target?_of_standard hs)
  refine hmem ht ?_
  rcases List.mem_append.mp hn with hn | hn
  · obtain ⟨from', hf, hn⟩ := List.mem_flatMap.mp hn
    exact h.closed from' hf name hn t ht
  · rcases List.mem_append.mp hn with hn | hn
    · rcases List.mem_append.mp hn with hn | hn
      · exact h.roots name hn t ht
      · obtain ⟨d, hd, hn⟩ := List.mem_flatMap.mp hn
        obtain ⟨a, ha, rfl⟩ := List.mem_map.mp hn
        exact h.directives d hd a ha t ht
    · rw [List.mem_singleton.mp hn] at ht
      exact h.introspection t ht

/-- What definitions add to types that are there makes a complete schema. -/
theorem extendWith_complete {base : Schema} {definitions : List Definition} {unchecked : Bool}
    {adjust : Schema → Schema} (ha : (adjust base).types = base.types) (hg : Grounded base.types)
    (h : extendWith base definitions unchecked adjust = .ok schema) : schema.Complete := by
  obtain ⟨existing, added, types, hb, rfl⟩ := (extendWith_ok_iff ha).mp h
  exact arrange_complete _ (hb.nodup hg)

/-- Root types are bound to listed types, or not at all. -/
theorem Schema.Complete.withRoot (h : schema.Complete) (operation : OperationKind)
    {root : Option String} (hr : ∀ name ∈ root, name ∈ schema.typeNames) :
    (schema.withRoot operation root).Complete := by
  have hroots : ∀ name ∈ (schema.withRoot operation root).rootNames,
      name ∈ root ∨ name ∈ schema.rootNames := by
    intro name hn
    obtain ⟨bound, hb, hn⟩ := List.mem_filterMap.mp hn
    rw [root?_withRoot] at hn
    split at hn
    · exact .inl hn
    · exact .inr (List.mem_filterMap.mpr ⟨bound, hb, hn⟩)
  have htypes : (schema.withRoot operation root).types = schema.types := by
    cases operation <;> rfl
  have hdirectives : (schema.withRoot operation root).directives = schema.directives := by
    cases operation <;> rfl
  refine ⟨by rw [Schema.typeNames, htypes]; exact h.nodup, fun name hn hs => ?_⟩
  rw [Schema.references, htypes, hdirectives] at hn
  rw [Schema.typeNames, htypes]
  have hkept : name ∈ schema.references ∨ name ∈ root := by
    simp only [Schema.references, List.mem_append] at hn ⊢
    rcases hn with hn | (hn | hn) | hn
    · exact .inl (.inl hn)
    · exact (hroots name hn).symm.imp_left fun hn => .inr (.inl (.inl hn))
    · exact .inl (.inr (.inl (.inr hn)))
    · exact .inl (.inr (.inr hn))
  exact hkept.elim (fun hn => h.listed name hn hs) (hr name)

theorem Schema.Complete.adoptRoots (h : schema.Complete) {operations : List OperationKind}
    (hr : ∀ operation ∈ operations, conventionalRoot operation ∈ schema.typeNames) :
    (schema.adoptRoots operations).Complete := by
  unfold Schema.adoptRoots
  induction operations generalizing schema with
  | nil => exact h
  | cons operation operations ih =>
      obtain ⟨hfirst, hr⟩ := List.forall_mem_cons.mp hr
      refine ih (h.withRoot operation (by simpa using hfirst)) fun other ho => ?_
      have hn := hr other ho
      cases operation <;> exact hn

theorem filterMap_eq_self {types : List NamedType} {f : NamedType → Option NamedType}
    (h : ∀ t ∈ types, f t = some t) : types.filterMap f = types := by
  induction types with
  | nil => rfl
  | cons t types ih =>
      obtain ⟨ht, h⟩ := List.forall_mem_cons.mp h
      rw [List.filterMap_cons_some ht, ih h]

theorem target?_of_typeName {schema : Schema} (h : schema.Complete) (hn : name ∈ schema.typeNames) :
    ∃ t, target? schema.types name = some t ∧ t ∈ schema.types := by
  obtain ⟨t, ht, rfl⟩ := List.mem_map.mp hn
  exact ⟨t, target?_of_mem h.nodup ht, ht⟩

/-- A complete schema is arranged. -/
theorem Schema.Complete.arrange (h : schema.Complete) : schema.arrange schema.types = schema := by
  have horder (fuel : Nat) : orderOfTypes (target? schema.types) (fuel + 1) schema.typeNames
      schema.others = schema.typeNames := by
    refine orderOfTypes_of_closed _ _ h.nodup (fun name hn => ?_) (fun name hn => ?_)
      fun name hn => h.mem_typeNames (List.mem_append_right _ hn)
    · obtain ⟨t, ht, -⟩ := target?_of_typeName h hn
      rw [ht]
      rfl
    · obtain ⟨t, ht, hm⟩ := target?_of_typeName h hn
      intro t' ht' next hnext
      cases ht.symm.trans ht'
      exact h.mem_typeNames (List.mem_append_left _ (List.mem_flatMap.mpr ⟨t, hm, hnext⟩))
  have hself : schema.typeNames.filterMap (target? schema.types) = schema.types := by
    rw [Schema.typeNames, List.filterMap_map]
    exact filterMap_eq_self fun t ht => target?_of_mem h.nodup ht
  have htypes : (schema.arrange schema.types).types = schema.types := by
    obtain ⟨fuel, hf, htypes⟩ := exists_order schema schema.types
    obtain ⟨fuel, rfl⟩ := Nat.exists_eq_add_one_of_ne_zero (Nat.ne_zero_of_lt hf)
    rw [htypes, ← Schema.typeNames, horder, hself]
  calc schema.arrange schema.types
      = { schema with types := (schema.arrange schema.types).types } := rfl
    _ = schema := by rw [htypes]

end Completeness

/-! ## Schemas with their root types -/

section Assigned

variable {schema : Schema} {operation : OperationKind}

/-- An object of the name that an operation looks for. -/
theorem notObject_eq_false {name : String} :
    notObject schema name = false ↔ ∃ t, schema.type? name = some t ∧ t.isObject := by
  unfold notObject
  cases schema.type? name <;> simp

theorem conventionalRoot_mem (h : operation ∈ schema.missingRoots) :
    conventionalRoot operation ∈ schema.typeNames := by
  obtain ⟨-, -, ho⟩ := mem_missingRoots.mp h
  obtain ⟨t, ht, -⟩ := notObject_eq_false.mp ho
  exact find?_name ht ▸ List.mem_map_of_mem (List.mem_of_find?_eq_some ht)

/-- Assigning root types to a complete schema changes nothing else. -/
theorem Schema.Complete.withDefaultRoots (h : schema.Complete) :
    schema.withDefaultRoots = schema.adoptRoots schema.missingRoots := by
  have hadopted : (schema.adoptRoots schema.missingRoots).Complete :=
    h.adoptRoots fun _ => conventionalRoot_mem
  have harranged := hadopted.arrange
  rw [adoptRoots_types] at harranged
  unfold Schema.withDefaultRoots
  split
  · rename_i hm
    rw [hm]
    rfl
  · exact harranged

theorem adoptRoots_description (operations : List OperationKind) (schema : Schema) :
    (schema.adoptRoots operations).description = schema.description := by
  unfold Schema.adoptRoots
  induction operations generalizing schema with
  | nil => rfl
  | cons operation operations ih =>
      rw [List.foldl_cons, ih]
      cases operation <;> rfl

theorem missingRoots_eq_nil : schema.missingRoots = [] ↔ schema.defined ∨ ∀ operation,
    schema.root? operation = none → ∀ t, schema.type? (conventionalRoot operation) = some t →
      t.isObject = false := by
  rw [List.eq_nil_iff_forall_not_mem]
  simp only [mem_missingRoots, notObject_eq_false]
  cases schema.defined <;> simp

/-- A schema that gets a root type is another one. -/
theorem withDefaultRoots_eq_self : schema.withDefaultRoots = schema ↔ schema.missingRoots = [] := by
  constructor
  · intro he
    refine List.eq_nil_iff_forall_not_mem.mpr fun operation hm => ?_
    have hm := mem_missingRoots.mp hm
    have hr := @root?_withDefaultRoots operation schema
    rw [he, if_pos hm, hm.2.1] at hr
    cases hr
  · intro hm
    rw [Schema.withDefaultRoots, hm]

/-- No root type is missing once they are assigned. -/
theorem missingRoots_withDefaultRoots (h : schema.Complete) :
    schema.withDefaultRoots.missingRoots = [] := by
  refine List.eq_nil_iff_forall_not_mem.mpr fun operation hm => ?_
  obtain ⟨hd, hr, ho⟩ := mem_missingRoots.mp hm
  rw [(withDefaultRoots_frame schema).2.1] at hd
  rw [root?_withDefaultRoots] at hr
  have htypes : schema.withDefaultRoots.types = schema.types := by
    rw [h.withDefaultRoots, adoptRoots_types]
  rw [notObject, Schema.type?, htypes, ← Schema.type?, ← notObject] at ho
  split at hr
  · cases hr
  · rename_i hk
    exact hk ⟨hd, hr, ho⟩

/-- Each operation has the root type that it had, or else the object of its conventional name. -/
theorem root?_assigned (hd : schema.defined = false) :
    schema.withDefaultRoots.root? operation = (schema.root? operation).or
      (((schema.type? (conventionalRoot operation)).filter NamedType.isObject).map
        NamedType.name) := by
  rw [root?_withDefaultRoots]
  cases hr : schema.root? operation with
  | some name => simp
  | none =>
      simp only [hd, true_and, Option.none_or, notObject]
      cases ht : schema.type? (conventionalRoot operation) with
      | none => simp
      | some t =>
          rw [Option.filter_some]
          cases ho : t.isObject with
          | false => simp [ho]
          | true =>
              have hn : t.name = conventionalRoot operation := find?_name ht
              simp [ho, hn]

end Assigned

end SdlAssembly.Schemas

namespace SdlAssembly.Model

open Grammar Schemas

/-! ## Assigning -/

theorem assignRoots_of_nil {schema : Schema} (h : schema.missingRoots = []) :
    assignRoots schema = ⟨schema, []⟩ := by
  rw [assignRoots, h]

/-- A schema with a schema definition is left as it is. Any other gets the objects of the
conventional names for the root types that it lacks, and nothing else of it changes: it is the same
schema if it lacks none for which there is such an object, and it is the same when root types are
assigned to it again. -/
theorem assignRoots_exact {schema : Schema} (h : schema.Complete) :
    (schema.defined → assignRoots schema = ⟨schema, []⟩)
      ∧ (schema.defined = false → ∀ operation, (assignRoots schema).value.root? operation =
        (schema.root? operation).or (((schema.type? (conventionalRoot operation)).filter
          NamedType.isObject).map NamedType.name))
      ∧ (assignRoots schema).value.types = schema.types
      ∧ (assignRoots schema).value.directives = schema.directives
      ∧ (assignRoots schema).value.description = schema.description
      ∧ ((assignRoots schema).value = schema ↔ schema.defined ∨ ∀ operation,
        schema.root? operation = none → ∀ t, schema.type? (conventionalRoot operation) = some t →
          t.isObject = false)
      ∧ ((assignRoots schema).value = schema ↔ assignRoots schema = ⟨schema, []⟩)
      ∧ assignRoots (assignRoots schema).value = ⟨(assignRoots schema).value, []⟩ := by
  rw [assignRoots_value]
  refine ⟨fun hd => assignRoots_of_nil (missingRoots_eq_nil.mpr (.inl hd)),
    fun hd operation => root?_assigned hd, ?_, (withDefaultRoots_frame schema).1, ?_, ?_, ?_,
    assignRoots_of_nil (missingRoots_withDefaultRoots h)⟩
  · rw [h.withDefaultRoots, adoptRoots_types]
  · rw [h.withDefaultRoots, adoptRoots_description]
  · rw [withDefaultRoots_eq_self, missingRoots_eq_nil]
  · constructor
    · exact fun he => assignRoots_of_nil (withDefaultRoots_eq_self.mp he)
    · intro he
      rw [← assignRoots_value, he]

/-! ## A schema without root types -/

/-- An object for queries, and a scalar of the name of mutations. -/
def rootless : List Definition :=
  [.type ⟨none, "Query", [], .object [] [⟨none, "a", [], .named "Mutation", []⟩]⟩,
    .type ⟨none, "Mutation", [], .scalar⟩]

/-- Definitions make a complete schema. The object is assigned in it, and the scalar is not. -/
theorem assignRoots_exact_rootless : ∃ schema, Schema.bare.extend rootless true = .ok schema
    ∧ schema.Complete
    ∧ (assignRoots schema).value.query = some "Query"
    ∧ (assignRoots schema).value.mutation = none
    ∧ (assignRoots schema).value.types = schema.types
    ∧ (assignRoots schema).value ≠ schema := by
  have hschema : (Schema.bare.extend rootless true).toOption.map (fun schema =>
      (schema.rootNames, (schema.type? "Query").map NamedType.isObject,
        (schema.type? "Mutation").map NamedType.isObject, schema.defined)) =
      some ([], some true, some false, false) := by
    decide +kernel
  obtain ⟨schema, he, hschema⟩ := Option.map_eq_some_iff.mp hschema
  have he := Except.toOption_eq_some.mp he
  have hc : schema.Complete := extendWith_complete rfl grounded_nil he
  simp only [Prod.mk.injEq, Option.map_eq_some_iff] at hschema
  obtain ⟨hnames, ⟨query, hquery, ho⟩, ⟨mutation, hmutation, hn⟩, hd⟩ := hschema
  have hnone : ∀ operation, schema.root? operation = none := fun operation =>
    List.filterMap_eq_nil_iff.mp hnames operation (by cases operation <;> decide)
  have hname : query.name = "Query" := find?_name hquery
  obtain ⟨-, hroots, htypes, -, -, hsame, -⟩ := assignRoots_exact hc
  refine ⟨schema, he, hc, ?_, ?_, htypes, fun hunchanged => ?_⟩
  · refine (hroots hd .query).trans ?_
    rw [hnone, conventionalRoot, hquery, Option.filter_some, if_pos ho]
    exact congrArg some hname
  · refine (hroots hd .mutation).trans ?_
    rw [hnone, conventionalRoot, hmutation, Option.filter_some, hn]
    rfl
  · rcases hsame.mp hunchanged with hdefined | hobjects
    · exact Bool.noConfusion (hd.symm.trans hdefined)
    · exact Bool.noConfusion (ho.symm.trans (hobjects .query (hnone .query) query hquery))

end SdlAssembly.Model
