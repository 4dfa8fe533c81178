import Mathlib.Data.List.Basic
import SdlAssembly.Proofs.Schema.Endless
import SdlAssembly.Proofs.Schema.Reprinting

/-!
# Valid schemas

A schema without violations is one whose roots, directives and types have none of their own, and in
which every input object can be given. None of this depends on the order of its types.
-/

namespace SdlAssembly.Schemas

open Grammar Collecting

/-! ## Violations of their own -/

/-- The violations of a type, apart from those of the input objects that it must hold. -/
def ownViolations (schema : Schema) (t : NamedType) : List Violation :=
  (if isIntrospectionType t.name then [] else checkName t.name) ++
    match t.shape with
    | .scalar _ => []
    | .object interfaces _ | .interface interfaces _ =>
      fieldViolations t ++ interfaceViolations schema t [] interfaces
    | .union members =>
      (if members.isEmpty then [.noMembers t.name] else []) ++ repeatedMembers t.name [] members
    | .enum values =>
      (if values.isEmpty then [.noValues t.name] else []) ++ values.flatMap fun value =>
        checkName value.name
    | .inputObject fields oneOf => inputViolations t fields oneOf

section Own

variable {schema : Schema} {t : NamedType} {visited : List String}

theorem typeViolations_of_input (h : t.isInputObject) : typeViolations schema visited t =
    ((searchInputs schema (schema.types.length + 1) [] visited t).1,
      ownViolations schema t ++ (searchInputs schema (schema.types.length + 1) [] visited t).2) := by
  unfold NamedType.isInputObject at h
  unfold typeViolations ownViolations
  cases hs : t.shape with
  | inputObject fields oneOf => simp
  | _ => simp [hs] at h

theorem typeViolations_of_not_input (h : t.isInputObject = false) :
    typeViolations schema visited t = (visited, ownViolations schema t) := by
  unfold NamedType.isInputObject at h
  unfold typeViolations ownViolations
  cases hs : t.shape with
  | inputObject fields oneOf => simp [hs] at h
  | _ => simp

theorem mustHold_eq_nil (h : t.isInputObject = false) : t.mustHold schema = [] := by
  unfold NamedType.isInputObject at h
  unfold NamedType.mustHold NamedType.inputFields
  cases hs : t.shape with
  | inputObject fields oneOf => simp [hs] at h
  | _ => rfl

/-- With each type listed once, all input objects can be given if those that are listed can. -/
theorem givable_of_listed (h : ∀ t ∈ schema.types, t.isInputObject → Givable schema t.name)
    (name : String) : Givable schema name := by
  cases ht : schema.type? name with
  | none =>
      refine .intro _ fun inner hi => ?_
      obtain ⟨t, ht', -⟩ := hi
      rw [ht] at ht'
      cases ht'
  | some t =>
      obtain rfl : t.name = name := find?_name ht
      cases hi : t.isInputObject with
      | true => exact h t (List.mem_of_find?_eq_some ht) hi
      | false =>
          refine .intro _ fun inner hm => ?_
          obtain ⟨t', ht', field, hf⟩ := hm
          cases ht.symm.trans ht'
          rw [mustHold_eq_nil hi] at hf
          cases hf

theorem onWay_nil (h : ∀ name ∈ visited, Givable schema name) :
    OnWay schema (schema.types.length + 1) [] visited :=
  ⟨by simp, by simp, by simp, by simp, fun name hm => .inr (h name hm)⟩

theorem quiet_typeViolations (hn : schema.typeNames.Nodup) {types : List NamedType}
    (hsub : types ⊆ schema.types) (hv : ∀ name ∈ visited, Givable schema name)
    (hq : Quiet (typeViolations schema) visited types) :
    ∀ t ∈ types, ownViolations schema t = [] ∧ (t.isInputObject → Givable schema t.name) := by
  induction types generalizing visited with
  | nil => simp
  | cons t types ih =>
      obtain ⟨hfirst, hrest⟩ := hq
      have ht : schema.type? t.name = some t := (Schema.mem_types hn).mp (hsub (by simp))
      have hsub : types ⊆ schema.types := fun _ hm => hsub (List.mem_cons_of_mem t hm)
      cases hi : t.isInputObject with
      | false =>
          rw [typeViolations_of_not_input hi] at hfirst hrest
          exact List.forall_mem_cons.mpr ⟨⟨hfirst, by simp [hi]⟩, ih hsub hv hrest⟩
      | true =>
          rw [typeViolations_of_input hi] at hfirst hrest
          obtain ⟨hown, hsearch⟩ := List.append_eq_nil_iff.mp hfirst
          have hway : OnWay schema (schema.types.length + 1) [] visited := onWay_nil hv
          obtain ⟨hl, hg⟩ := searchInputs_leaves _ ht hway (Prod.ext rfl hsearch)
          have hgivable : Givable schema t.name := hg.resolve_left (by simp)
          exact List.forall_mem_cons.mpr ⟨⟨hown, fun _ => hgivable⟩,
            ih hsub (fun name hm => (hl.givable name hm).resolve_left (by simp)) hrest⟩

/-- A schema is valid if its parts are and every input object can be given. -/
theorem violations_eq_nil (hu : schema.unchecked = false) (hn : schema.typeNames.Nodup) :
    schema.violations = [] ↔ rootViolations schema = []
      ∧ (∀ d ∈ schema.directives, directiveViolations d = [])
      ∧ (∀ t ∈ schema.types, ownViolations schema t = []) ∧ ∀ name, Givable schema name := by
  have hfold : schema.violations = rootViolations schema
      ++ schema.directives.flatMap directiveViolations
      ++ (schema.types.foldl (fun state t => ((typeViolations schema state.1 t).1,
        state.2 ++ (typeViolations schema state.1 t).2)) ([], [])).2 := by
    unfold Schema.violations
    rw [hu]
    rfl
  rw [hfold, List.append_eq_nil_iff, List.append_eq_nil_iff, List.flatMap_eq_nil_iff, foldl_eq_nil,
    and_assoc]
  refine and_congr_right fun _ => and_congr_right fun _ => ⟨fun hq => ?_, ?_⟩
  · have hall := quiet_typeViolations hn (fun _ hm => hm) (by simp) hq
    exact ⟨fun t ht => (hall t ht).1, givable_of_listed fun t ht => (hall t ht).2⟩
  · rintro ⟨hown, hg⟩
    refine quiet_of_forall (fun t ht visited => ?_) _
    cases hi : t.isInputObject with
    | false => rw [typeViolations_of_not_input hi, hown t ht]
    | true =>
        rw [typeViolations_of_input hi, hown t ht]
        exact searchInputs_eq_nil _ ((Schema.mem_types hn).mp ht) hg (by simp)

end Own

/-! ## Types that are alike -/

section Alike

variable {names : String → Prop} {alone schema : Schema}

theorem leadsTo_field {t : NamedType} {field : Field} (hf : field ∈ t.fields) :
    field.type.core ∈ t.leadsTo := by
  have hm : field.type.core ∈ t.fields.flatMap fun field =>
      field.type.core :: field.arguments.map fun argument => argument.type.core :=
    List.mem_flatMap.mpr ⟨field, hf, List.mem_cons_self⟩
  unfold NamedType.fields at hm
  unfold NamedType.leadsTo
  cases hs : t.shape with
  | object interfaces fields =>
      rw [hs] at hm
      exact List.mem_append_right _ hm
  | interface interfaces fields =>
      rw [hs] at hm
      exact List.mem_append_right _ hm
  | _ =>
      rw [hs] at hm
      cases hm

theorem leadsTo_interface {t : NamedType} {name : String} (hn : name ∈ t.interfaces) :
    name ∈ t.leadsTo := by
  unfold NamedType.interfaces at hn
  unfold NamedType.leadsTo
  cases hs : t.shape with
  | object interfaces fields =>
      rw [hs] at hn
      exact List.mem_append_left _ hn
  | interface interfaces fields =>
      rw [hs] at hn
      exact List.mem_append_left _ hn
  | _ =>
      rw [hs] at hn
      cases hn

/-- What a test that scalars do not pass finds under a name. -/
theorem AlikeOn.test (h : AlikeOn names alone.type? schema.type?) {test : NamedType → Bool}
    (ht : ∀ t url, t.shape = .scalar url → test t = false) {name : String} (hn : names name) :
    ((alone.type? name).map test).getD false = ((schema.type? name).map test).getD false := by
  have hr := h.alike name hn
  match alone.type? name, schema.type? name, hr with
  | none, none, _ => rfl
  | some t, some t', .some ha =>
      rcases ha.cases with rfl | ⟨url, url', hs, hs', -⟩
      · rfl
      · rw [Option.map_some, Option.map_some, ht t url hs, ht t' url' hs']

theorem isPossible_alike (h : AlikeOn names alone.type? schema.type?) {super sub : String}
    (hp : names super) (hb : names sub) :
    alone.isPossible super sub = schema.isPossible super sub := by
  have hsuper := h.alike super hp
  have hsub := h.alike sub hb
  unfold Schema.isPossible
  match alone.type? super, schema.type? super, hsuper with
  | none, none, _ => rfl
  | some t, some t', .some ha =>
      match alone.type? sub, schema.type? sub, hsub with
      | none, none, _ => rfl
      | some u, some u', .some hu =>
          rcases ha.cases with rfl | ⟨url, url', hs, hs', -⟩
          · rcases hu.cases with rfl | ⟨url, url', hs, hs', -⟩
            · rfl
            · dsimp only
              split <;> simp [NamedType.isObject, NamedType.isInterface, NamedType.interfaces, hs, hs']
          · dsimp only
            rw [hs, hs']

theorem isSubtype_alike (h : AlikeOn names alone.type? schema.type?) (sub super : TypeRef)
    (hb : names sub.core) (hp : names super.core) :
    alone.isSubtype sub super = schema.isSubtype sub super := by
  fun_induction Schema.isSubtype alone sub super with
  | case1 sub super ih => exact ih hb hp
  | case2 sub super hne ih =>
      cases super with
      | nonNull super => exact (hne super rfl).elim
      | _ => exact ih hb hp
  | case3 sub super ih => exact ih hb hp
  | case4 sub super =>
      have he : alone.isPossible super sub = schema.isPossible super sub := isPossible_alike h hp hb
      rw [Schema.isSubtype, he]
  | case5 sub super h1 _ h3 h4 =>
      cases sub with
      | nonNull sub => exact (h1 sub rfl).elim
      | list sub =>
          cases super with
          | list super => exact (h3 sub super rfl rfl).elim
          | _ => rfl
      | named sub =>
          cases super with
          | named super => exact (h4 sub super rfl rfl).elim
          | _ => rfl

theorem providedViolations_alike (h : AlikeOn names alone.type? schema.type?)
    {wanted given : Member} {wantedField givenField : Field}
    (hw : names wantedField.type.core) (hg : names givenField.type.core) :
    providedViolations alone wanted given wantedField givenField =
      providedViolations schema wanted given wantedField givenField := by
  rw [providedViolations, providedViolations, isSubtype_alike h _ _ hg hw]

theorem implementationViolations_alike (h : AlikeOn names alone.type? schema.type?)
    {t interface : NamedType} (ht : ∀ name ∈ t.leadsTo, names name)
    (hi : ∀ name ∈ interface.leadsTo, names name) :
    implementationViolations alone t interface = implementationViolations schema t interface := by
  refine List.flatMap_congr fun wanted hw => ?_
  cases hf : t.field? wanted.name with
  | none => rfl
  | some given =>
      exact providedViolations_alike h (hi _ (leadsTo_field hw))
        (ht _ (leadsTo_field (List.mem_of_find?_eq_some hf)))

theorem interfaceViolations_alike (h : AlikeOn names alone.type? schema.type?) {t : NamedType}
    (ht : ∀ name ∈ t.leadsTo, names name) (before interfaces : List String)
    (hi : ∀ name ∈ interfaces, names name) :
    interfaceViolations alone t before interfaces =
      interfaceViolations schema t before interfaces := by
  induction interfaces generalizing before with
  | nil => rfl
  | cons name rest ih =>
      obtain ⟨hn, hi⟩ := List.forall_mem_cons.mp hi
      have hr := h.alike name hn
      have hc := h.closed name hn
      rw [interfaceViolations, interfaceViolations, ih before hi, ih (name :: before) hi]
      match alone.type? name, schema.type? name, hr, hc with
      | none, none, _, _ => rfl
      | some u, some u', .some ha, hc =>
          rcases ha.cases with rfl | ⟨url, url', hs, hs', -⟩
          · dsimp only
            rw [implementationViolations_alike h ht (hc u rfl)]
          · have hnone {schema : Schema} {u : NamedType} {url : Option String}
                (hs : u.shape = .scalar url) :
                ancestorViolations t u ++ implementationViolations schema t u = [] := by
              simp [ancestorViolations, implementationViolations, NamedType.interfaces,
                NamedType.fields, hs]
            dsimp only
            rw [hnone hs, hnone hs']

theorem ownViolations_alike (h : AlikeOn names alone.type? schema.type?) {t : NamedType}
    (ht : ∀ name ∈ t.leadsTo, names name) : ownViolations alone t = ownViolations schema t := by
  have hi : ∀ interfaces ⊆ t.interfaces, interfaceViolations alone t [] interfaces =
      interfaceViolations schema t [] interfaces := fun interfaces hsub =>
    interfaceViolations_alike h ht [] interfaces fun name hn =>
      ht name (leadsTo_interface (hsub hn))
  unfold NamedType.interfaces at hi
  unfold ownViolations
  cases hs : t.shape with
  | object interfaces fields =>
      rw [hs] at hi
      dsimp only at hi ⊢
      rw [hi interfaces fun _ hm => hm]
  | interface interfaces fields =>
      rw [hs] at hi
      dsimp only at hi ⊢
      rw [hi interfaces fun _ hm => hm]
  | _ => rfl

theorem ownViolations_unspecified (t : NamedType) :
    ownViolations schema t.unspecified = ownViolations schema t := by
  by_cases h : ∃ url, t.shape = .scalar url
  · obtain ⟨url, hs⟩ := h
    simp [NamedType.unspecified, ownViolations, hs]
  · rw [unspecified_eq_self fun url hs => h ⟨url, hs⟩]

theorem ownViolations_of_interfaces_nil {schema' : Schema} {t : NamedType}
    (h : t.interfaces = []) : ownViolations schema t = ownViolations schema' t := by
  unfold NamedType.interfaces at h
  unfold ownViolations
  cases hs : t.shape with
  | object interfaces fields =>
      rw [hs] at h
      obtain rfl : interfaces = [] := h
      rfl
  | interface interfaces fields =>
      rw [hs] at h
      obtain rfl : interfaces = [] := h
      rfl
  | _ => rfl

/-- The standard types are valid in every schema. -/
theorem ownViolations_standard {t : NamedType} (h : t ∈ standardTypes) :
    ownViolations schema t = [] := by
  have hi : ∀ t ∈ standardTypes, t.interfaces = [] := by decide
  have hv : ∀ t ∈ standardTypes, ownViolations .bare t = [] := by decide +kernel
  rw [ownViolations_of_interfaces_nil (hi t h), hv t h]

end Alike

/-! ## Schemas that differ in specifications -/

section Unspecified

variable {meaning : String → Option NamedType} {alone schema : Schema}

theorem KeepsStandard.mem {name : String} {t : NamedType} (h : KeepsStandard meaning)
    (hs : isStandardType name) (hm : meaning name = some t) : t ∈ standardTypes := by
  rw [h name hs] at hm
  exact List.mem_of_find?_eq_some hm

/-- Types that are not standard are listed in both schemas. -/
theorem listedInBoth (ha : alone.Lists meaning)
    (hs : schema.Lists fun name => (meaning name).map NamedType.unspecified) {name : String}
    (hn : isStandardType name = false) : ListedInBoth meaning alone schema name :=
  ⟨ha.type?_eq hn, hs.type?_eq hn⟩

theorem ownViolations_both (ha : alone.Lists meaning)
    (hs : schema.Lists fun name => (meaning name).map NamedType.unspecified)
    (hk : KeepsStandard meaning) : (∀ t ∈ schema.types, ownViolations schema t = []) ↔
      ∀ t ∈ alone.types, ownViolations alone t = [] := by
  have hboth : ∀ t ∈ alone.types, t.unspecified ∈ schema.types →
      ownViolations alone t = ownViolations schema t := fun t ht ht' =>
    ownViolations_alike (alikeOn_lists ha hs) fun name hn =>
      ⟨ha.closed t ht name hn, hs.closed _ ht' name (leadsTo_unspecified t ▸ hn)⟩
  constructor
  · intro h t ht
    have hm := ha.sound t ht
    cases hstandard : isStandardType t.name with
    | true => exact ownViolations_standard (hk.mem hstandard hm)
    | false =>
        have ht' : t.unspecified ∈ schema.types :=
          hs.complete t.name _ hstandard (by rw [hm, Option.map_some])
        rw [hboth t ht ht', ← ownViolations_unspecified, h _ ht']
  · intro h t' ht'
    obtain ⟨t, hm, rfl⟩ := Option.map_eq_some_iff.mp (hs.sound t' ht')
    rw [unspecified_name] at hm
    rw [ownViolations_unspecified]
    cases hstandard : isStandardType t.name with
    | true => exact ownViolations_standard (hk.mem hstandard hm)
    | false =>
        have ht := ha.complete t.name t hstandard hm
        rw [← hboth t ht ht', h t ht]

theorem mustHold_alike {names : String → Prop} (h : AlikeOn names alone.type? schema.type?)
    {t : NamedType} (ht : ∀ name ∈ t.leadsTo, names name) :
    t.mustHold alone = t.mustHold schema := by
  have hscalar : ∀ (t : NamedType) url, t.shape = .scalar url → t.isInputObject = false :=
    fun t url hs => by simp [NamedType.isInputObject, hs]
  refine List.filterMap_congr fun field hf => ?_
  have hn := ht _ (leadsTo_input hf)
  split
  · rename_i name hname
    rw [hname] at hn
    have hn : names name := hn
    rw [h.test hscalar hn]
  · rfl

/-- Both schemas list the same input objects. -/
theorem inputObject_both (ha : alone.Lists meaning)
    (hs : schema.Lists fun name => (meaning name).map NamedType.unspecified)
    (hk : KeepsStandard meaning) {name : String} {t : NamedType} (hi : t.isInputObject) :
    schema.type? name = some t ↔ alone.type? name = some t := by
  have hself : ∀ u : NamedType, u.unspecified = t ↔ u = t := by
    intro u
    by_cases h : ∃ url, u.shape = .scalar url
    · obtain ⟨url, hurl⟩ := h
      constructor
      · rintro rfl
        simp [NamedType.unspecified, NamedType.isInputObject, hurl] at hi
      · rintro rfl
        simp [NamedType.isInputObject, hurl] at hi
    · rw [unspecified_eq_self fun url hurl => h ⟨url, hurl⟩]
  cases hstandard : isStandardType name with
  | true =>
      have hnot : ∀ u, meaning name = some u → u.isInputObject = false :=
        fun u hu => isInputObject_standard u (hk.mem hstandard hu)
      constructor
      · intro ht
        obtain ⟨hin, rfl⟩ := (find?_eq_some_iff hs.nodup).mp ht
        obtain ⟨u, hu, hut⟩ := Option.map_eq_some_iff.mp (hs.sound t hin)
        rw [(hself u).mp hut] at hu
        rw [hnot t hu] at hi
        cases hi
      · intro ht
        obtain ⟨hin, rfl⟩ := (find?_eq_some_iff ha.nodup).mp ht
        rw [hnot t (ha.sound t hin)] at hi
        cases hi
  | false =>
      obtain ⟨hn, hn'⟩ := listedInBoth ha hs hstandard
      rw [hn, hn', Option.map_eq_some_iff]
      constructor
      · rintro ⟨u, hu, hut⟩
        rw [hu, (hself u).mp hut]
      · exact fun ht => ⟨t, ht, (hself t).mpr rfl⟩

theorem mustHold_both (ha : alone.Lists meaning)
    (hs : schema.Lists fun name => (meaning name).map NamedType.unspecified)
    (hk : KeepsStandard meaning) (outer inner : String) :
    MustHold schema outer inner ↔ MustHold alone outer inner := by
  have hinput : ∀ (schema : Schema) (t : NamedType) field, (field, inner) ∈ t.mustHold schema →
      t.isInputObject := by
    intro schema t field hf
    cases hi : t.isInputObject with
    | true => rfl
    | false =>
        rw [mustHold_eq_nil hi] at hf
        cases hf
  have hboth : ∀ t, alone.type? outer = some t → schema.type? outer = some t →
      t.mustHold alone = t.mustHold schema := fun t ht ht' =>
    mustHold_alike (alikeOn_lists ha hs) fun name hn =>
      ⟨ha.closed t (List.mem_of_find?_eq_some ht) name hn,
        hs.closed t (List.mem_of_find?_eq_some ht') name hn⟩
  constructor
  · rintro ⟨t, ht, field, hf⟩
    have ht' := (inputObject_both ha hs hk (hinput _ t field hf)).mp ht
    exact ⟨t, ht', field, hboth t ht' ht ▸ hf⟩
  · rintro ⟨t, ht, field, hf⟩
    have ht' := (inputObject_both ha hs hk (hinput _ t field hf)).mpr ht
    exact ⟨t, ht', field, hboth t ht ht' ▸ hf⟩

theorem rootViolations_both (ha : alone.Lists meaning)
    (hs : schema.Lists fun name => (meaning name).map NamedType.unspecified)
    (hr : schema.root? = alone.root?) : rootViolations schema = rootViolations alone := by
  have hobject : ∀ operation name, alone.root? operation = some name →
      notObject schema name = notObject alone name := by
    intro operation name hn
    have hmem : ∀ schema : Schema, schema.root? operation = some name → name ∈ schema.rootNames :=
      fun schema h => List.mem_filterMap.mpr ⟨operation, by cases operation <;> simp [OperationKind.all], h⟩
    have hboth : ListedInBoth meaning alone schema name :=
      ⟨ha.roots name (hmem _ hn), hs.roots name (hmem _ (hr ▸ hn))⟩
    have hscalar : ∀ (t : NamedType) url, t.shape = .scalar url → t.isObject = false :=
      fun t url hs => by simp [NamedType.isObject, hs]
    rw [notObject, notObject, (alikeOn_lists ha hs).test hscalar hboth]
  unfold rootViolations
  refine List.flatMap_congr fun operation _ => ?_
  rw [hr]
  cases hroot : alone.root? operation with
  | none => cases operation <;> rfl
  | some name => cases operation <;> simp only [hobject _ name hroot]

/-- Schemas that differ in specifications are valid together. -/
theorem violations_both (ha : alone.Lists meaning)
    (hs : schema.Lists fun name => (meaning name).map NamedType.unspecified)
    (hk : KeepsStandard meaning) (hr : schema.root? = alone.root?)
    (hd : ∀ d, d ∈ schema.directives ↔ d ∈ alone.directives)
    (hu : schema.unchecked = false) (hu' : alone.unchecked = false) :
    schema.violations = [] ↔ alone.violations = [] := by
  have hholds : MustHold schema = MustHold alone := by
    funext outer inner
    exact propext (mustHold_both ha hs hk outer inner)
  rw [violations_eq_nil hu hs.nodup, violations_eq_nil hu' ha.nodup, rootViolations_both ha hs hr,
    ownViolations_both ha hs hk]
  simp only [hd, Givable, hholds]

end Unspecified

end SdlAssembly.Schemas
