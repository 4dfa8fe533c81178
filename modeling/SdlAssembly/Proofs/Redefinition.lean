import SdlAssembly.Proofs.PlaceholderSchemas
import SdlAssembly.Proofs.StrictRules

/-!
# Types that are defined more than once

A scalar stands for its first definition and any other type for its last, and a name that is defined
as both is no scalar. So a first definition counts where only scalars follow it. The rules of strict
validation let no name pass that is defined twice, but for two scalars and for the built-in scalars
that a schema does not have from the start.
-/

namespace SdlAssembly.Schemas.Rules

open Grammar Collecting

/-! ## Names that the rules let pass -/

section Names

variable {surroundings : Surroundings} {scope : Scope} {seen : Seen} {definitions : List Definition}

theorem untyped_of_isPart {v : Visit} (h : v.isPart) (node : TypeNode) :
    v ≠ .typeDefinition node := by
  rintro rfl
  cases h

theorem untyped_ofDefinition {d : Definition} (ht : ∀ node, d ≠ .type node)
    (hx : ∀ node, d ≠ .typeExtension node) :
    ∀ v ∈ ofDefinition d, ∀ node, v ≠ .typeDefinition node := by
  intro v hv
  cases d with
  | type node => exact (ht node rfl).elim
  | typeExtension node => exact (hx node rfl).elim
  | operation d => exact untyped_of_isPart (isPart_of_mem_operation v hv)
  | fragment d => exact untyped_of_isPart (isPart_of_mem_fragment v hv)
  | schema d | schemaExtension d =>
      rcases List.mem_cons.mp hv with rfl | hv
      · simp
      · exact untyped_of_isPart (isPart_ofSchema d v hv)
  | directive d =>
      rcases List.mem_cons.mp hv with rfl | hv
      · simp
      · exact untyped_of_isPart (isPart_ofInputs _ _ v hv)

/-- Names of types are remembered from definitions of types alone. -/
theorem remember_types {items : List Visit} (h : ∀ v ∈ items, ∀ node, v ≠ .typeDefinition node)
    (seen : Seen) : (remember (check surroundings scope) seen items).types = seen.types := by
  induction items generalizing seen with
  | nil => rfl
  | cons v items ih =>
      obtain ⟨hv, h⟩ := List.forall_mem_cons.mp h
      have htyped : check surroundings scope (seen.typed seen.types) v = _ := check_typed hv
      exact (ih h _).trans (congrArg (fun state => state.1.types) htyped)

/-- A definition of a type gives no cause for complaint only if its name is new. -/
theorem new_of_quiet {node : TypeNode}
    (h : (check surroundings scope seen (.typeDefinition node)).2 = []) :
    scope.existing? node.name = none ∧ node.name ∉ seen.types
      ∧ (check surroundings scope seen (.typeDefinition node)).1.types =
        node.name :: seen.types := by
  have hx : scope.existing? node.name = none := by
    cases hx : scope.existing? node.name with
    | none => rfl
    | some t => simp [check, checkTypeName, hx] at h
  have hn : node.name ∉ seen.types := by
    intro hn
    simp [check, checkTypeName, hx, hn] at h
  refine ⟨hx, hn, ?_⟩
  rw [check_typeDefinition hx hn, checkMembers_typed, typed_types]

/-- On a quiet walk every name of a type is new. -/
theorem names_of_quiet (hx : typeExtensions definitions = [])
    (h : Quiet (check surroundings scope) seen (visits definitions)) :
    ((typeDefinitions definitions).map TypeNode.name).Nodup
      ∧ ∀ node ∈ typeDefinitions definitions,
        scope.existing? node.name = none ∧ node.name ∉ seen.types := by
  induction definitions generalizing seen with
  | nil => exact ⟨.nil, by simp [typeDefinitions]⟩
  | cons d definitions ih =>
      rw [visits_cons, quiet_append] at h
      obtain ⟨hd, h⟩ := h
      cases d with
      | type node =>
          obtain ⟨hnew, hseen, htypes⟩ := new_of_quiet hd.1
          have hparts : (remember (check surroundings scope) seen
              (ofDefinition (.type node))).types = node.name :: seen.types :=
            (remember_types (fun v hv => untyped_of_isPart (isPart_ofType node v hv)) _).trans
              htypes
          obtain ⟨hnodup, hfresh⟩ := ih hx h
          rw [hparts] at hfresh
          refine ⟨List.nodup_cons.mpr ⟨fun hm => ?_, hnodup⟩,
            List.forall_mem_cons.mpr ⟨⟨hnew, hseen⟩, fun other ho => ?_⟩⟩
          · obtain ⟨other, ho, he⟩ := List.mem_map.mp hm
            exact (hfresh other ho).2 (he ▸ List.mem_cons_self)
          · exact ⟨(hfresh other ho).1, fun hm => (hfresh other ho).2 (List.mem_cons_of_mem _ hm)⟩
      | typeExtension node => cases hx
      | _ =>
          rw [typeDefinitions, List.filterMap_cons_none rfl, ← typeDefinitions]
          have hrest := ih hx h
          rwa [remember_types (untyped_ofDefinition (by simp) (by simp))] at hrest

/-- Definitions that keep the rules take each name once, and none that is there already. -/
theorem names_of_violations (hx : typeExtensions definitions = [])
    (h : violations surroundings definitions = []) :
    ((typeDefinitions definitions).map TypeNode.name).Nodup
      ∧ ∀ node ∈ typeDefinitions definitions,
        surroundings.types.find? (fun t => t.name == node.name) = none := by
  obtain ⟨hnodup, hnew⟩ := names_of_quiet hx (violations_eq_nil.mp h)
  exact ⟨hnodup, fun node hn => (hnew node hn).1⟩

end Names

end SdlAssembly.Schemas.Rules

namespace SdlAssembly.Model

open Grammar Documents Schemas Except

/-! ## Definitions that prevail -/

/-- A definition prevails over the others of its name: those after it are of scalars, and if it is
of a scalar itself, there are none before it. -/
structure Prevails (before : List Definition) (node : TypeNode) (after : List Definition) :
    Prop where
  later : ∀ other ∈ typeDefinitions after, other.name = node.name → other.body = .scalar
  earlier : node.body = .scalar → ∀ other ∈ typeDefinitions before, other.name ≠ node.name

section Prevailing

variable {before after definitions : List Definition} {node : TypeNode} {name : String}

theorem typeDefinitions_append (xs ys : List Definition) :
    typeDefinitions (xs ++ ys) = typeDefinitions xs ++ typeDefinitions ys := List.filterMap_append

theorem mem_typeDefinitions_cons {d : Definition} : node ∈ typeDefinitions (d :: definitions) ↔
    d = .type node ∨ node ∈ typeDefinitions definitions := by
  rw [mem_typeDefinitions, mem_typeDefinitions, List.mem_cons, eq_comm]

/-- Of the definitions of a name one prevails. -/
theorem exists_prevailing (h : ∃ node ∈ typeDefinitions definitions, node.name = name) :
    ∃ before node after, definitions = before ++ .type node :: after ∧ node.name = name
      ∧ Prevails before node after := by
  induction definitions with
  | nil =>
      obtain ⟨node, hn, -⟩ := h
      cases hn
  | cons d definitions ih =>
      by_cases hrest : ∃ node ∈ typeDefinitions definitions, node.name = name
      · obtain ⟨before, kept, after, rfl, hname, hp⟩ := ih hrest
        by_cases hd : kept.body = .scalar ∧ ∃ node, d = .type node ∧ node.name = name
        · -- all definitions of the name are of scalars, so the first one takes over
          obtain ⟨hs, node, rfl, hn⟩ := hd
          refine ⟨[], node, _, rfl, hn, fun other ho he => ?_, by simp [typeDefinitions]⟩
          have he : other.name = kept.name := he.trans (hn.trans hname.symm)
          rw [typeDefinitions_append, List.mem_append, mem_typeDefinitions_cons] at ho
          rcases ho with ho | ho | ho
          · exact (hp.earlier hs other ho he).elim
          · cases ho
            exact hs
          · exact hp.later other ho he
        · refine ⟨d :: before, kept, after, rfl, hname, hp.later, fun hs other ho he => ?_⟩
          rcases mem_typeDefinitions_cons.mp ho with rfl | ho
          · exact hd ⟨hs, other, rfl, he.trans hname⟩
          · exact hp.earlier hs other ho he
      · obtain ⟨node, hn, hname⟩ := h
        rcases mem_typeDefinitions_cons.mp hn with rfl | hn
        · exact ⟨[], node, definitions, rfl, hname,
            fun other ho he => (hrest ⟨other, ho, he.trans hname⟩).elim, by simp [typeDefinitions]⟩
        · exact (hrest ⟨node, hn, hname⟩).elim

theorem lastDefinition?_append (xs ys : List Definition) (name : String) :
    lastDefinition? (xs ++ ys) name =
      (lastDefinition? ys name).or (lastDefinition? xs name) := by
  rw [lastDefinition?, typeDefinitions_append, List.reverse_append, List.find?_append]
  rfl

theorem lastDefinition?_eq_none (h : ∀ other ∈ typeDefinitions definitions, other.name ≠ name) :
    lastDefinition? definitions name = none :=
  List.find?_eq_none.mpr fun other ho => by simpa using h other (List.mem_reverse.mp ho)

theorem withoutScalars_append (xs ys : List Definition) :
    withoutScalars (xs ++ ys) = withoutScalars xs ++ withoutScalars ys := List.filter_append ..

/-- No definition that is kept comes after one that prevails. -/
theorem Prevails.kept_after (h : Prevails before node after) :
    lastDefinition? (withoutScalars after) node.name = none := by
  refine lastDefinition?_eq_none fun other ho he => ?_
  obtain ⟨ho, hb⟩ := typeDefinitions_withoutScalars.mp ho
  exact hb (h.later other ho he)

theorem Prevails.kept (h : Prevails before node after) (hb : node.body ≠ .scalar) :
    lastDefinition? (withoutScalars (before ++ .type node :: after)) node.name = some node := by
  have hself : lastDefinition? [.type node] node.name = some node := by
    simp [lastDefinition?, typeDefinitions]
  rw [withoutScalars_append, withoutScalars_cons (scalarDefinition?_eq_none hb),
    List.append_cons, lastDefinition?_append, h.kept_after, Option.none_or, lastDefinition?_append,
    hself, Option.some_or]

theorem Prevails.replaced (h : Prevails before node after) (hb : node.body = .scalar) :
    lastDefinition? (withoutScalars (before ++ .type node :: after)) node.name = none := by
  rw [withoutScalars_append, withoutScalars_cons_scalar hb, lastDefinition?_append, h.kept_after,
    Option.none_or]
  exact lastDefinition?_eq_none fun other ho =>
    h.earlier hb other (typeDefinitions_withoutScalars.mp ho).1

/-- A scalar that prevails is the first of its name. -/
theorem Prevails.firstScalar (h : Prevails before node after) (hb : node.body = .scalar) :
    ((before ++ .type node :: after).filterMap scalarDefinition?).find?
      (fun other => other.name == node.name) = some node := by
  have hbefore : (before.filterMap scalarDefinition?).find?
      (fun other => other.name == node.name) = none :=
    List.find?_eq_none.mpr fun other ho => by
      simpa using h.earlier hb other (mem_scalars.mp ho).1
  rw [List.filterMap_append, List.find?_append, hbefore, Option.none_or,
    List.filterMap_cons_some (scalarDefinition?_eq_some hb), List.find?_cons, beq_self_eq_true]

end Prevailing

/-! ## Placeholders of scalars that are defined more than once -/

section Placeholders

variable {model : TypeSystem} {definitions : List Definition} {strict : Bool} {name : String}

/-- Placeholders stand under their own names, which are not standard. -/
theorem TypeSystem.Defines.ownNames (h : model.Defines definitions strict) :
    ∀ pair ∈ model.placeholders.toList, pair.2.name = pair.1 ∧ isStandardType pair.1 = false := by
  intro pair hp
  rw [h.placeholders] at hp
  obtain ⟨node, hn, rfl⟩ := List.mem_map.mp (Registry.mem_of_mem_firstOfEach hp)
  obtain ⟨hn, hb⟩ := List.mem_filter.mp hn
  refine ⟨rfl, ?_⟩
  rw [isStandardType, h.notReserved node hn, Bool.or_false]
  simpa using hb

theorem TypeSystem.Defines.map_name (h : model.Defines definitions strict) :
    (model.placeholders.values.map Placeholder.type).map NamedType.name =
      model.placeholders.keys := by
  have hvalues : model.placeholders.values = model.placeholders.toList.map Prod.snd := rfl
  rw [hvalues, Registry.keys_eq_map, List.map_map, List.map_map]
  exact List.map_congr_left fun pair hp => (h.ownNames pair hp).1

theorem TypeSystem.Defines.not_standard (h : model.Defines definitions strict) :
    ∀ t ∈ model.placeholders.values.map Placeholder.type, isStandardType t.name = false := by
  intro t ht
  have hkey : t.name ∈ model.placeholders.keys := h.map_name ▸ List.mem_map_of_mem ht
  obtain ⟨pair, hp, hname⟩ := List.mem_map.mp hkey
  exact hname ▸ (h.ownNames pair hp).2

theorem TypeSystem.Defines.nodup (h : model.Defines definitions strict) :
    ((model.placeholders.values.map Placeholder.type).map NamedType.name).Nodup :=
  h.map_name ▸ model.placeholders.nodup

theorem TypeSystem.Defines.foundation_grounded (h : model.Defines definitions strict) :
    Grounded model.foundation.types := grounded_ofTypes h.nodup h.not_standard

/-- The placeholder of a name is that of the first scalar. -/
theorem TypeSystem.Defines.get?_placeholders (h : model.Defines definitions strict)
    (hs : isStandardType name = false) : model.placeholders.get? name =
      ((definitions.filterMap scalarDefinition?).find? fun node => node.name == name).map
        Placeholder.ofDefinition := by
  have hb : isBuiltinScalar name = false := (Bool.or_eq_false_iff.mp hs).1
  have hentries := Registry.lookup_map TypeNode.name Placeholder.ofDefinition
    ((definitions.filterMap scalarDefinition?).filter fun node => !isBuiltinScalar node.name) name
  rw [h.placeholders_eq, Registry.get?_addAll]
  refine (Option.none_or ..).trans (hentries.trans (congrArg (Option.map _) ?_))
  rw [List.find?_filter]
  refine congrArg (List.find? · _) (funext fun node => ?_)
  by_cases hn : node.name = name
  · simp [hn, hb]
  · simp [hn]

theorem find?_values {pairs : List (String × Placeholder)}
    (h : ∀ pair ∈ pairs, pair.2.name = pair.1) :
    ((pairs.map Prod.snd).map Placeholder.type).find? (fun t => t.name == name) =
      (pairs.lookup name).map Placeholder.type := by
  induction pairs with
  | nil => rfl
  | cons pair pairs ih =>
      obtain ⟨hpair, h⟩ := List.forall_mem_cons.mp h
      have hname : pair.2.type.name = pair.1 := hpair
      rw [List.map_cons, List.map_cons, List.find?_cons, ih h, List.lookup_cons, hname, BEq.comm]
      cases name == pair.1 <;> rfl

theorem TypeSystem.Defines.find?_foundation (h : model.Defines definitions strict)
    (hs : isStandardType name = false) :
    model.foundation.types.find? (fun t => t.name == name) =
      ((definitions.filterMap scalarDefinition?).find? fun node => node.name == name).map
        fun node => (Placeholder.ofDefinition node).type := by
  have hvalues : (model.placeholders.values.map Placeholder.type).find? (fun t => t.name == name) =
      (model.placeholders.get? name).map Placeholder.type :=
    find?_values fun pair hp => (h.ownNames pair hp).1
  rw [TypeSystem.foundation, find?_ofTypes h.nodup hs, hvalues,
    h.get?_placeholders hs, Option.map_map]
  rfl

end Placeholders

/-! ## What names stand for -/

/-- What names stand for while the schema of a model is built. -/
def TypeSystem.sources (model : TypeSystem) : Sources :=
  sourcesOf model.foundation.types model.retained

section Standing

variable {model : TypeSystem} {definitions before after : List Definition} {strict : Bool}
  {node : TypeNode} {schema : Schema}

theorem Unextended.withoutScalars (h : Unextended definitions) :
    typeExtensions (withoutScalars definitions) = [] :=
  List.sublist_nil.mp (h.types ▸ (List.filter_sublist.filterMap _))

/-- A name stands for the definition that prevails. -/
theorem Prevails.find?_sources (hp : Prevails before node after)
    (h : model.Defines (before ++ .type node :: after) strict)
    (hx : Unextended (before ++ .type node :: after)) (hs : isStandardType node.name = false) :
    model.sources.find? node.name = some (replacement node) := by
  rw [TypeSystem.sources, h.retained, find?_sourcesOf hs, hx.withoutScalars]
  by_cases hb : node.body = .scalar
  · rw [hp.replaced hb, h.find?_foundation hs, hp.firstScalar hb, replacement_scalar hb]
    rfl
  · rw [hp.kept hb, replacement_of_ne hb]
    rfl

/-- The type of a name is that of the definition that prevails. -/
theorem Prevails.type?_eq (hp : Prevails before node after)
    (h : model.Defines (before ++ .type node :: after) strict)
    (hx : Unextended (before ++ .type node :: after)) (hs : isStandardType node.name = false)
    (hb : model.build.value = .ok schema) :
    ∃ t, (replacement node).type model.sources = .ok t ∧ schema.type? node.name = some t := by
  have hg := h.foundation_grounded
  obtain ⟨added, types, hbuilds, hlists, -⟩ := build_lists (h.retained ▸ hx.withoutScalars) hg hb
  obtain ⟨t, ht, htarget⟩ := hbuilds.target?_of_find? hg (hp.find?_sources h hx hs)
  exact ⟨t, ht, (hlists.type?_eq hs).trans htarget⟩

/-- The types for introspection are not redefined. -/
theorem TypeSystem.Defines.type?_introspection (h : model.Defines definitions strict)
    (hx : Unextended definitions) (hb : model.build.value = .ok schema) {name : String}
    (hi : isIntrospectionType name) : schema.type? name = standardType? name := by
  obtain ⟨added, types, -, hlists, hstandard⟩ :=
    build_lists (h.retained ▸ hx.withoutScalars) h.foundation_grounded hb
  have hall : ∀ name ∈ introspectionTypes, name ∈ introspected 2 := by decide
  exact hlists.type?_introspected hstandard 2 name (hall name (List.contains_iff_mem.mp hi))

end Standing

/-! ## Strict validation -/

section Strict

variable {model : TypeSystem} {definitions : List Definition} {strict : Bool}
  {node node' : TypeNode} {name : String}

theorem TypeSystem.Defines.listed (h : model.Defines definitions strict)
    (hn : name ∈ alwaysListed) : (model.foundation.type? name).isSome := by
  have hg : Grounded (model.placeholders.values.map Placeholder.type) :=
    ⟨h.nodup, fun t ht hs => by simp [h.not_standard t ht] at hs⟩
  have hall : ∀ name ∈ alwaysListed, name ∈ introspected 2 ∧ (standardType? name).isSome := by
    decide
  obtain ⟨hin, hs⟩ := hall name hn
  have hlists : model.foundation.Lists (target? (model.placeholders.values.map Placeholder.type)) :=
    arrange_lists _ h.nodup
  rw [hlists.type?_introspected (keepsStandard_target? hg) 2 name hin]
  exact hs

/-- A scalar is there before the definitions, unless it is built in and not listed. -/
theorem TypeSystem.Defines.scalar_listed (h : model.Defines definitions strict)
    (hm : node ∈ typeDefinitions definitions) (hb : node.body = .scalar)
    (hn : isBuiltinScalar node.name = false ∨ node.name ∈ alwaysListed) :
    (model.foundation.type? node.name).isSome := by
  have hscalar : node ∈ definitions.filterMap scalarDefinition? := mem_scalars.mpr ⟨hm, hb⟩
  rcases hn with hn | hn
  · have hs : isStandardType node.name = false := by
      rw [isStandardType, hn, h.notReserved node hscalar]
      rfl
    have hfound : ((definitions.filterMap scalarDefinition?).find?
        fun other => other.name == node.name).isSome :=
      List.find?_isSome.mpr ⟨node, hscalar, beq_self_eq_true _⟩
    rw [Schema.type?, h.find?_foundation hs, Option.isSome_map]
    exact hfound
  · exact h.listed hn

/-- A model whose definitions break the rules is rejected. -/
theorem build_rejected (hs : model.strict)
    (hv : Rules.violations (.ofSchema model.foundation) model.retained ≠ []) :
    ∃ violations, model.build.value = .error (.rejected violations) := by
  cases hviolations : Rules.violations (.ofSchema model.foundation) model.retained with
  | nil => exact (hv hviolations).elim
  | cons violation violations =>
      refine ⟨violation :: violations, ?_⟩
      have he : model.extended = .error (.rejected (violation :: violations)) := by
        rw [TypeSystem.extended, hs, hviolations]
        rfl
      rw [TypeSystem.build, he]

/-- Two definitions of one name that are no scalars are rejected. -/
theorem TypeSystem.Defines.rejects_repeated (h : model.Defines definitions true)
    (hx : Unextended definitions) (hsub : [.type node, .type node'].Sublist definitions)
    (hn : node'.name = node.name) (hb : node.body ≠ .scalar) (hb' : node'.body ≠ .scalar) :
    ∃ violations, model.build.value = .error (.rejected violations) := by
  refine build_rejected h.strict fun hv => ?_
  obtain ⟨hnodup, -⟩ := Rules.names_of_violations (h.retained ▸ hx.withoutScalars) hv
  have hkept : (withoutScalars [.type node, .type node']).Sublist model.retained :=
    h.retained ▸ hsub.filter _
  rw [withoutScalars_cons (scalarDefinition?_eq_none hb),
    withoutScalars_cons (scalarDefinition?_eq_none hb')] at hkept
  have hnames := hnodup.sublist ((hkept.filterMap _).map TypeNode.name)
  simp [withoutScalars, hn] at hnames

/-- A definition of a name that is there already is rejected, if it is no scalar. -/
theorem TypeSystem.Defines.rejects_listed (h : model.Defines definitions true)
    (hx : Unextended definitions) (hm : node ∈ typeDefinitions definitions)
    (hb : node.body ≠ .scalar) (hl : (model.foundation.type? node.name).isSome) :
    ∃ violations, model.build.value = .error (.rejected violations) := by
  refine build_rejected h.strict fun hv => ?_
  obtain ⟨-, hnew⟩ := Rules.names_of_violations (h.retained ▸ hx.withoutScalars) hv
  have hnone := hnew node (h.retained ▸ typeDefinitions_withoutScalars.mpr ⟨hm, hb⟩)
  have hnone : model.foundation.type? node.name = none := hnone
  rw [hnone] at hl
  cases hl

theorem TypeSystem.Defines.rejects (h : model.Defines definitions true)
    (hx : Unextended definitions) (hsub : [.type node, .type node'].Sublist definitions)
    (hn : node'.name = node.name) (hb : ¬(node.body = .scalar ∧ node'.body = .scalar))
    (hl : isBuiltinScalar node.name = false ∨ node.name ∈ alwaysListed
      ∨ node.body ≠ .scalar ∧ node'.body ≠ .scalar) :
    ∃ violations, model.build.value = .error (.rejected violations) := by
  have hm : node ∈ typeDefinitions definitions :=
    mem_typeDefinitions.mpr (hsub.subset (by simp))
  have hm' : node' ∈ typeDefinitions definitions :=
    mem_typeDefinitions.mpr (hsub.subset (by simp))
  by_cases hs : node.body = .scalar
  · have hs' : node'.body ≠ .scalar := fun hs' => hb ⟨hs, hs'⟩
    have hl : isBuiltinScalar node.name = false ∨ node.name ∈ alwaysListed := by
      simpa [hs] using hl
    exact h.rejects_listed hx hm' hs' (hn ▸ h.scalar_listed hm hs hl)
  · by_cases hs' : node'.body = .scalar
    · have hl : isBuiltinScalar node.name = false ∨ node.name ∈ alwaysListed := by
        simpa [hs'] using hl
      exact h.rejects_listed hx hm hs (hn ▸ h.scalar_listed hm' hs' (hn ▸ hl))
    · exact h.rejects_repeated hx hsub hn hs hs'

end Strict

/-! ## Built-in scalars that are defined -/

/-- Definitions without those of built-in scalars. -/
def withoutBuiltins (definitions : List Definition) : List Definition :=
  definitions.filter fun d => !(scalarDefinition? d).any fun node => isBuiltinScalar node.name

section Builtins

variable {model model' : TypeSystem} {definitions : List Definition} {strict : Bool}

theorem scalarEntries_withoutBuiltins (definitions : List Definition) :
    scalarEntries (withoutBuiltins definitions) = scalarEntries definitions := by
  refine congrArg (List.map _) ?_
  rw [withoutBuiltins]
  induction definitions with
  | nil => rfl
  | cons d definitions ih =>
      cases hd : scalarDefinition? d with
      | none => simp [hd, ih]
      | some node => cases hb : isBuiltinScalar node.name <;> simp [hd, hb, ih]

theorem withoutScalars_withoutBuiltins (definitions : List Definition) :
    withoutScalars (withoutBuiltins definitions) = withoutScalars definitions := by
  rw [withoutScalars, withoutBuiltins, List.filter_filter, withoutScalars]
  refine List.filter_congr fun d _ => ?_
  cases scalarDefinition? d <;> simp

/-- The schema of a model is made of its placeholders and of the definitions that are retained. -/
theorem build_of_retained (hplaceholders : model'.placeholders = model.placeholders)
    (hretained : model'.retained = model.retained) (hstrict : model'.strict = model.strict) :
    model'.build = model.build := by
  have hchecked : model'.checked = model.checked := by
    funext schema
    rw [TypeSystem.checked, TypeSystem.checked, hstrict]
  have hextended : model'.extended = model.extended := by
    rw [TypeSystem.extended, TypeSystem.extended, TypeSystem.foundation, TypeSystem.foundation,
      hplaceholders, hretained, hstrict]
  rw [TypeSystem.build, TypeSystem.build, hextended, hchecked]

/-- Definitions of built-in scalars make no difference to the schema of a model. -/
theorem build_withoutBuiltins (h : model.Defines definitions strict)
    (h' : model'.Defines (withoutBuiltins definitions) strict) :
    model'.build = model.build := by
  refine build_of_retained ?_ ?_ (h'.strict.trans h.strict.symm)
  · rw [h.placeholders_eq, h'.placeholders_eq, scalarEntries_withoutBuiltins]
  · rw [h.retained, h'.retained, withoutScalars_withoutBuiltins]

end Builtins

/-! ## Models of definitions -/

/-- A name of a model of definitions stands for the definition that prevails, of which there is one
for each name that is defined, and a first definition prevails over scalars. With strict validation
two definitions of a name are rejected if they are not both scalars, and a scalar that is built in
and not listed from the start counts as none. -/
theorem build_redefined {documents : List NamedDocument} {strict : Bool} {model : TypeSystem}
    (hdocs : ∀ d ∈ documents, ¬annotates d)
    (hm : (assemble (some documents) strict).value = .ok model) :
    (∀ schema, model.build.value = .ok schema → ∀ before node after,
        definitionsOf documents = before ++ .type node :: after → Prevails before node after →
        isBuiltinScalar node.name = false →
        if isIntrospectionType node.name then schema.type? node.name = standardType? node.name
        else ∃ t, (replacement node).type model.sources = .ok t
          ∧ schema.type? node.name = some t)
      ∧ (∀ node ∈ typeDefinitions (definitionsOf documents), ∃ before kept after,
        definitionsOf documents = before ++ .type kept :: after ∧ kept.name = node.name
          ∧ Prevails before kept after)
      ∧ (∀ before node after, (∀ other ∈ typeDefinitions before, other.name ≠ node.name) →
        (∀ other ∈ typeDefinitions after, other.name = node.name → other.body = .scalar) →
        Prevails before node after)
      ∧ (strict = true → ∀ node node',
        [.type node, .type node'].Sublist (definitionsOf documents) → node'.name = node.name →
        ¬(node.body = .scalar ∧ node'.body = .scalar) →
        (isBuiltinScalar node.name = false ∨ node.name ∈ alwaysListed
          ∨ node.body ≠ .scalar ∧ node'.body ≠ .scalar) →
        ∃ violations, model.build.value = .error (.rejected violations))
      ∧ ∀ documents' model', (∀ d ∈ documents', ¬annotates d) →
        definitionsOf documents' = withoutBuiltins (definitionsOf documents) →
        (assemble (some documents') strict).value = .ok model' → model'.build = model.build := by
  have h := assemble_definitions hdocs hm
  have hx := unextended_definitionsOf hdocs
  refine ⟨fun schema hb before node after hd hp hn => ?_,
    fun node hn => exists_prevailing ⟨node, hn, rfl⟩,
    fun before node after hfirst hlater => ⟨hlater, fun _ => hfirst⟩,
    fun hs node node' hsub hname hb hl => ?_, fun documents' model' hdocs' hd' hm' => ?_⟩
  · split
    · rename_i hi
      exact h.type?_introspection hx hb hi
    · rename_i hi
      have hs : isStandardType node.name = false := by simp [isStandardType, hn, hi]
      rw [hd] at h hx
      exact hp.type?_eq h hx hs hb
  · subst hs
    exact h.rejects hx hsub hname hb hl
  · have h' := assemble_definitions hdocs' hm'
    rw [hd'] at h'
    exact build_withoutBuiltins h h'

/-! ## Objects after other definitions of their names -/

/-- An object with one field. -/
def objectWith (name field : String) : TypeNode :=
  ⟨none, name, [], .object [] [⟨none, field, [], .named "Int", []⟩]⟩

/-- A document of a query and of two definitions. -/
def defining (first second : TypeNode) : List NamedDocument :=
  [⟨⟨[.type (objectWith "Query" "a"), .type first, .type second], none⟩, none⟩]

def objectTwice : List NamedDocument := defining (objectWith "A" "x") (objectWith "A" "y")

def scalarThenObject : List NamedDocument := defining ⟨none, "A", [], .scalar⟩ (objectWith "A" "y")

def builtinThenObject : List NamedDocument :=
  defining ⟨none, "Int", [], .scalar⟩ (objectWith "Int" "y")

def fieldNames (t : NamedType) : List String := t.fields.map (·.name)

/-- The fields of a name in the schema of a model, and those that a definition gives. -/
def bothFields? (documents : List NamedDocument) (strict : Bool) (node : TypeNode) :
    Option (List String × List String) :=
  match (assemble (some documents) strict).value with
  | .error _ => none
  | .ok model =>
    match model.build.value, (replacement node).type model.sources with
    | .ok schema, .ok t => some (((schema.type? node.name).map fieldNames).getD [], fieldNames t)
    | _, _ => none

theorem exists_of_bothFields? {documents : List NamedDocument} {strict : Bool} {node : TypeNode}
    {here there : List String} (h : bothFields? documents strict node = some (here, there)) :
    ∃ model schema t, (assemble (some documents) strict).value = .ok model
      ∧ model.build.value = .ok schema ∧ (replacement node).type model.sources = .ok t
      ∧ ((schema.type? node.name).map fieldNames).getD [] = here ∧ fieldNames t = there := by
  unfold bothFields? at h
  split at h
  · cases h
  · rename_i model hm
    split at h
    · rename_i schema t hs ht
      cases h
      exact ⟨model, schema, t, hm, hs, ht, rfl, rfl⟩
    · cases h

/-- The second of two objects counts, and with validation both are rejected. -/
theorem build_redefined_objects :
    ∃ model schema t, (assemble (some objectTwice) false).value = .ok model
      ∧ model.build.value = .ok schema
      ∧ (replacement (objectWith "A" "y")).type model.sources = .ok t
      ∧ schema.type? "A" = some t
      ∧ ∃ model' violations, (assemble (some objectTwice) true).value = .ok model'
        ∧ model'.build.value = .error (.rejected violations) := by
  have hdocs : ∀ d ∈ objectTwice, ¬annotates d := by decide
  have hfields : bothFields? objectTwice false (objectWith "A" "y") = some (["y"], ["y"]) := by
    decide +kernel
  obtain ⟨model, schema, -, hm, hs, -, -⟩ := exists_of_bothFields? hfields
  obtain ⟨model', hm'⟩ := assemble_definitions_isOk hdocs (by decide) true
  have hprevails : Prevails [.type (objectWith "Query" "a"), .type (objectWith "A" "x")]
      (objectWith "A" "y") [] := ⟨by simp [typeDefinitions], fun hb => by cases hb⟩
  obtain ⟨t, ht, htype⟩ :=
    (build_redefined hdocs hm).1 schema hs _ _ _ rfl hprevails (by decide)
  obtain ⟨violations, hv⟩ := (build_redefined hdocs hm').2.2.2.1 rfl (objectWith "A" "x")
    (objectWith "A" "y") (.cons _ (.refl _)) rfl (fun hb => by cases hb.1) (.inl (by decide))
  exact ⟨model, schema, t, hm, hs, ht, htype, model', violations, hm', hv⟩

/-- The schema of a model has another type under the name of the first definition than that
definition gives. -/
def Overrides (documents : List NamedDocument) (node : TypeNode) : Prop :=
  ∃ model schema t, (assemble (some documents) false).value = .ok model
    ∧ model.build.value = .ok schema ∧ (replacement node).type model.sources = .ok t
    ∧ schema.type? node.name ≠ some t

theorem overrides_of_bothFields? {documents : List NamedDocument} {node : TypeNode}
    {here there : List String} (h : bothFields? documents false node = some (here, there))
    (hne : here ≠ there) : Overrides documents node := by
  obtain ⟨model, schema, t, hm, hs, ht, rfl, rfl⟩ := exists_of_bothFields? h
  refine ⟨model, schema, t, hm, hs, ht, fun he => hne ?_⟩
  rw [he]
  rfl

/-- A first object or scalar does not count if an object of its name follows, and with validation a
built-in scalar and an object of one name are let pass. -/
theorem build_overrides : Overrides objectTwice (objectWith "A" "x")
    ∧ Overrides scalarThenObject ⟨none, "A", [], .scalar⟩
    ∧ ∃ model schema, (assemble (some builtinThenObject) true).value = .ok model
      ∧ model.build.value = .ok schema := by
  have hobjects : bothFields? objectTwice false (objectWith "A" "x") = some (["y"], ["x"]) := by
    decide +kernel
  have hscalar : bothFields? scalarThenObject false ⟨none, "A", [], .scalar⟩ =
      some (["y"], []) := by
    decide +kernel
  have hbuiltin : bothFields? builtinThenObject true (objectWith "Query" "a") =
      some (["a"], ["a"]) := by
    decide +kernel
  obtain ⟨model, schema, -, hm, hs, -⟩ := exists_of_bothFields? hbuiltin
  exact ⟨overrides_of_bothFields? hobjects (by decide),
    overrides_of_bothFields? hscalar (by decide), model, schema, hm, hs⟩

end SdlAssembly.Model
