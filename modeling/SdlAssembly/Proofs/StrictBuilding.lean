import Mathlib.Data.List.Basic
import SdlAssembly.Proofs.PlaceholderSchemas
import SdlAssembly.Proofs.Schema.Rooting
import SdlAssembly.Proofs.Schema.Validating
import SdlAssembly.Proofs.StrictRules

/-!
# Building a strict model

A strict model of definitions has a schema exactly if its definitions have a valid one of their own
that can be written down.
-/

namespace SdlAssembly.Model

open Grammar Documents Schemas Except

/-! ## Definitions beside those of scalars -/

section Beside

variable {definitions : List Definition}

theorem schemaNodes_withoutScalars :
    schemaNodes (withoutScalars definitions) = schemaNodes definitions := by
  refine Prod.ext (filterMap_withoutScalars fun d h => ?_) (filterMap_withoutScalars fun d h => ?_)
  · obtain ⟨node, rfl⟩ := type_of_scalarDefinition? h
    rfl
  · obtain ⟨node, rfl⟩ := type_of_scalarDefinition? h
    rfl

theorem bindings_withoutScalars : bindings (withoutScalars definitions) = bindings definitions := by
  rw [bindings, bindings, schemaNodes_withoutScalars]

end Beside

/-! ## Building with placeholders and without -/

section Both

variable {definitions : List Definition} {added : List DirectiveType} {types types' : List NamedType}

theorem readAtOnce_bare {node : TypeNode} (hb : node.body = .scalar) (hd : node.directives = []) :
    (sourceOf [] node).readAtOnce = .ok () := by
  unfold sourceOf
  split
  · rfl
  · rw [TypeSource.readAtOnce, hb, hd]
    rfl

/-- What definitions give alone they give beside placeholders. -/
theorem builds_kept (h : Plain definitions) (hb : Builds .bare definitions [] added types) :
    ∃ types', Builds (foundationOf definitions) (withoutScalars definitions)
      (foundationOf definitions).types added types' := by
  have hwithin := h.within
  have hx := h.typeExtensions_withoutScalars
  have htypes : ∃ types', (Plain.replacedSources definitions).mapM
      (fun source => source.2.type (Plain.replacedSources definitions)) = .ok types' := by
    refine Builds.exists_types h.foundation_grounded fun name source hs hf => ?_
    rw [h.find?_replaced hs] at hf
    obtain ⟨node, hl, rfl⟩ := Option.map_eq_some_iff.mp hf
    by_cases hscalar : node.body = .scalar
    · rw [replacement_scalar hscalar]
      exact ⟨_, rfl⟩
    · have halone : (sourcesOf [] definitions).find? name = some (.written node []) := by
        rw [h.find?_alone hs, hl]
        rfl
      obtain ⟨t, ht⟩ := hb.exists_type halone
      obtain ⟨t', ht', -⟩ := type_follows hwithin node [] t ht
      rw [replacement_of_ne hscalar]
      exact ⟨t', ht'⟩
  obtain ⟨types', htypes'⟩ := htypes
  refine ⟨types', mapM_eq_self fun t _ => by rw [hx, extendExisting_nil], ?_, ?_, ?_, htypes'⟩
  · intro node hn
    have hread := hb.readAtOnce node (typeDefinitions_withoutScalars.mp hn).1
    rw [h.types] at hread
    rw [hx]
    exact hread
  · intro binding hm
    rw [bindings_withoutScalars] at hm
    exact hwithin.isSome (hb.roots binding hm)
  · rw [directiveDefinitions_withoutScalars]
    obtain ⟨added', hadded, rfl⟩ := Follows.mapM
      (fun d _ => directiveType_follows hwithin d) added hb.directives
    exact hadded

/-- What definitions give beside placeholders they give alone, if their scalars have no
directives. -/
theorem builds_alone (h : Judged definitions)
    (hb : Builds (foundationOf definitions) (withoutScalars definitions)
      (foundationOf definitions).types added types') :
    ∃ types, Builds .bare definitions [] added types := by
  have hwithin := h.within'
  have hx := h.typeExtensions_withoutScalars
  have htypes : ∃ types, (sourcesOf [] definitions).mapM
      (fun source => source.2.type (sourcesOf [] definitions)) = .ok types := by
    refine Builds.exists_types grounded_nil fun name source hs hf => ?_
    rw [h.find?_alone hs] at hf
    obtain ⟨node, hl, rfl⟩ := Option.map_eq_some_iff.mp hf
    by_cases hscalar : node.body = .scalar
    · have hn := ((lastDefinition?_eq_some h.nodup).mp hl).1
      have hbare := h.bare node (mem_scalars.mpr ⟨hn, hscalar⟩)
      refine ⟨{ name := node.name, description := node.description.map (·.text),
                shape := .scalar none }, ?_⟩
      rw [TypeSource.type, shapeOf, hscalar, hbare]
      rfl
    · have hkept : (Plain.replacedSources definitions).find? name = some (.written node []) := by
        rw [h.find?_replaced hs, hl, Option.map_some, replacement_of_ne hscalar]
      obtain ⟨t, ht⟩ := hb.exists_type hkept
      obtain ⟨t', ht', -⟩ := type_follows hwithin node [] t ht
      exact ⟨t', ht'⟩
  obtain ⟨types, htypes⟩ := htypes
  refine ⟨types, rfl, ?_, ?_, ?_, htypes⟩
  · intro node hn
    rw [h.types]
    by_cases hscalar : node.body = .scalar
    · exact readAtOnce_bare hscalar (h.bare node (mem_scalars.mpr ⟨hn, hscalar⟩))
    · have hread := hb.readAtOnce node (typeDefinitions_withoutScalars.mpr ⟨hn, hscalar⟩)
      rw [hx] at hread
      exact hread
  · intro binding hm
    rw [← bindings_withoutScalars] at hm
    exact hwithin.isSome (hb.roots binding hm)
  · rw [← directiveDefinitions_withoutScalars]
    obtain ⟨added', hadded, rfl⟩ := Follows.mapM
      (fun d _ => directiveType_follows hwithin d) added hb.directives
    exact hadded

end Both

/-! ## The two schemas -/

section Schemas

variable {definitions : List Definition} {added : List DirectiveType} {types types' : List NamedType}

/-- The schema of definitions alone. -/
def aloneSchema (definitions : List Definition) (added : List DirectiveType)
    (types : List NamedType) : Schema :=
  (Schema.complete (definedNames definitions)
    (Schema.bare.withDefinitions definitions false added)).arrange types

/-- The schema of definitions beside placeholders, before root types are assigned. -/
def keptSchema (definitions : List Definition) (added : List DirectiveType)
    (types : List NamedType) : Schema :=
  ((foundationOf definitions).withDefinitions (withoutScalars definitions) false added).arrange types

/-- The root types that definitions bind beside placeholders. -/
theorem roots_kept (hb : Builds (foundationOf definitions) (withoutScalars definitions)
      (foundationOf definitions).types added types') (unchecked : Bool) :
    ((foundationOf definitions).withDefinitions (withoutScalars definitions) unchecked added).root? =
        (Schema.bare.bind (bindings definitions)).root?
      ∧ ((foundationOf definitions).withDefinitions (withoutScalars definitions) unchecked
        added).defined = !(schemaNodes definitions).1.isEmpty := by
  obtain ⟨-, hroot, hdefined, -⟩ := hb.withDefinitions_frame unchecked
  have hbare : (foundationOf definitions).root? = Schema.bare.root? := by
    funext operation
    cases operation <;> rfl
  rw [bindings_withoutScalars, root?_bind hbare] at hroot
  rw [schemaNodes_withoutScalars] at hdefined
  exact ⟨hroot, hdefined⟩

theorem defined_aloneSchema (hb : Builds .bare definitions [] added types) :
    (aloneSchema definitions added types).defined = !(schemaNodes definitions).1.isEmpty := by
  obtain ⟨-, -, hdefined, -⟩ := hb.withDefinitions_frame false
  exact (complete_frame _ _).2.1.trans hdefined

theorem defined_keptSchema (hb : Builds (foundationOf definitions) (withoutScalars definitions)
      (foundationOf definitions).types added types') :
    (keptSchema definitions added types').defined = !(schemaNodes definitions).1.isEmpty :=
  (roots_kept hb false).2

theorem root?_aloneSchema (hb : Builds .bare definitions [] added types) (operation : OperationKind) :
    (aloneSchema definitions added types).root? operation =
      if (schemaNodes definitions).1.isEmpty
          ∧ conventionalRoot operation ∈ definedNames definitions then
        some (conventionalRoot operation)
      else (Schema.bare.bind (bindings definitions)).root? operation := by
  obtain ⟨-, hroot, hdefined, -⟩ := hb.withDefinitions_frame false
  have hcomplete : (Schema.complete (definedNames definitions)
      (Schema.bare.withDefinitions definitions false added)).root? operation = _ :=
    root?_complete _ _
  rw [hroot, hdefined] at hcomplete
  have harrange : (aloneSchema definitions added types).root? operation =
      (Schema.complete (definedNames definitions)
        (Schema.bare.withDefinitions definitions false added)).root? operation := by
    cases operation <;> rfl
  rw [harrange, hcomplete]
  simp [Schema.bare]

theorem root?_keptSchema (hb : Builds (foundationOf definitions) (withoutScalars definitions)
      (foundationOf definitions).types added types') :
    (keptSchema definitions added types').root? = (Schema.bare.bind (bindings definitions)).root? := by
  rw [← (roots_kept hb false).1]
  funext operation
  cases operation <;> rfl

theorem lists_aloneSchema (hb : Builds .bare definitions [] added types) :
    (aloneSchema definitions added types).Lists (target? types) :=
  arrange_lists _ (hb.nodup grounded_nil)

theorem lists_keptSchema (h : Plain definitions)
    (hb : Builds (foundationOf definitions) (withoutScalars definitions)
      (foundationOf definitions).types added types') :
    (keptSchema definitions added types').Lists (target? types') :=
  arrange_lists _ (hb.nodup h.foundation_grounded)

/-- A conventional name is that of an object in both schemas or in none. -/
theorem notObject_both (h : Plain definitions) (hb : Builds .bare definitions [] added types)
    (hb' : Builds (foundationOf definitions) (withoutScalars definitions)
      (foundationOf definitions).types added types') (operation : OperationKind) :
    notObject (keptSchema definitions added types') (conventionalRoot operation) =
        notObject (aloneSchema definitions added types) (conventionalRoot operation)
      ∧ (conventionalRoot operation ∉ definedNames definitions →
        notObject (aloneSchema definitions added types) (conventionalRoot operation)) := by
  have hs : isStandardType (conventionalRoot operation) = false := by cases operation <;> decide
  have halone := (lists_aloneSchema hb).type?_eq hs
  have hkept := (lists_keptSchema h hb').type?_eq hs
  rw [target?_unspecified h hb hb'] at hkept
  unfold notObject
  rw [halone, hkept]
  constructor
  · cases target? types (conventionalRoot operation) with
    | none => rfl
    | some t => simp
  · intro hn
    have hl : lastDefinition? definitions (conventionalRoot operation) = none := by
      refine Option.eq_none_iff_forall_ne_some.mpr fun node hl => hn ?_
      obtain ⟨hm, he⟩ := (lastDefinition?_eq_some h.nodup).mp hl
      exact he ▸ List.mem_map_of_mem hm
    have hf := h.find?_alone hs
    rw [hl] at hf
    rw [hb.target?_eq_none grounded_nil hf]
    rfl

/-- With a schema definition or without, the root types are the same objects. -/
theorem root?_both (h : Plain definitions) (hb : Builds .bare definitions [] added types)
    (hb' : Builds (foundationOf definitions) (withoutScalars definitions)
      (foundationOf definitions).types added types') :
    (keptSchema definitions added types').withDefaultRoots.root? =
      (aloneSchema definitions added types).objectRoots.root? := by
  funext operation
  obtain ⟨hboth, hundefined⟩ := notObject_both h hb hb' operation
  rw [root?_withDefaultRoots, root?_objectRoots, root?_keptSchema hb', root?_aloneSchema hb,
    defined_aloneSchema hb, defined_keptSchema hb', hboth]
  cases hd : (schemaNodes definitions).1.isEmpty with
  | false => simp
  | true =>
      have hnone : (Schema.bare.bind (bindings definitions)).root? operation = none := by
        rw [bindings_of_undefined (List.isEmpty_iff.mp hd) h.schema]
        cases operation <;> rfl
      rw [hnone]
      by_cases hn : conventionalRoot operation ∈ definedNames definitions
      · cases ho : notObject (aloneSchema definitions added types) (conventionalRoot operation) <;>
          simp [hn, ho, Option.filter]
      · simp [hn, hundefined hn]

/-! ## Directives -/

/-- No standard directive is among those that are added. -/
theorem not_standard_added (hr : RedefinesNothing definitions)
    (hb : Builds .bare definitions [] added types) :
    ∀ d ∈ added, isStandardDirective d.name = false := by
  intro d hd
  obtain ⟨node, hn, hdirective⟩ := mapM_eq_ok hb.directives d hd
  obtain ⟨arguments, -, hdirective⟩ := bind_eq_ok hdirective
  cases hdirective
  exact hr.directives node hn

theorem directives_keptSchema (hb : Builds (foundationOf definitions) (withoutScalars definitions)
      (foundationOf definitions).types added types') :
    (keptSchema definitions added types').withDefaultRoots.directives =
      standardDirectives ++ added :=
  (withDefaultRoots_frame _).1.trans (hb.withDefinitions_frame false).1

theorem directives_aloneSchema (hr : RedefinesNothing definitions)
    (hb : Builds .bare definitions [] added types) :
    (aloneSchema definitions added types).directives = added ++ standardDirectives := by
  have hadded : (Schema.bare.withDefinitions definitions false added).directives = added :=
    (hb.withDefinitions_frame false).1
  have hmissing : missingDirectives (Schema.bare.withDefinitions definitions false added) =
      standardDirectives := by
    rw [missingDirectives, hadded]
    refine List.filter_eq_self.mpr fun standard hs => ?_
    rw [Bool.not_eq_true', List.any_eq_false]
    intro d hd he
    have hname : isStandardDirective d.name :=
      List.any_eq_true.mpr ⟨standard, hs, beq_iff_eq.mpr (eq_of_beq he).symm⟩
    cases (not_standard_added hr hb d hd).symm.trans hname
  refine (complete_frame _ _).1.trans ?_
  rw [hmissing, hadded]

/-! ## Validity and print -/

theorem lists_withDefaultRoots (h : Plain definitions) (hb : Builds .bare definitions [] added types)
    (hb' : Builds (foundationOf definitions) (withoutScalars definitions)
      (foundationOf definitions).types added types') :
    (keptSchema definitions added types').withDefaultRoots.Lists
      fun name => (target? types name).map NamedType.unspecified := by
  have hmeaning : (fun name => (target? types name).map NamedType.unspecified) = target? types' :=
    funext fun name => (target?_unspecified h hb hb' name).symm
  rw [hmeaning]
  exact (lists_keptSchema h hb').withDefaultRoots (hb'.grounded_types h.foundation_grounded)

/-- The two schemas are valid together. -/
theorem valid_both (h : Plain definitions) (hr : RedefinesNothing definitions)
    (hb : Builds .bare definitions [] added types)
    (hb' : Builds (foundationOf definitions) (withoutScalars definitions)
      (foundationOf definitions).types added types') :
    (keptSchema definitions added types').withDefaultRoots.violations = [] ↔
      (aloneSchema definitions added types).objectRoots.violations = [] := by
  refine violations_both (lists_aloneSchema hb).objectRoots (lists_withDefaultRoots h hb hb')
    (keepsStandard_target? (hb.grounded_types grounded_nil)) (root?_both h hb hb') ?_ ?_ ?_
  · intro d
    rw [directives_keptSchema hb', (objectRoots_frame _).2.1, directives_aloneSchema hr hb,
      List.mem_append, List.mem_append, or_comm]
  · exact (withDefaultRoots_frame _).2.2.trans ((hb'.withDefinitions_frame false).2.2.2 rfl)
  · exact (objectRoots_frame _).2.2.trans
      ((complete_frame _ _).2.2.trans ((hb.withDefinitions_frame false).2.2.2 rfl))

/-- The two schemas are printed together. -/
theorem printed_both (h : Plain definitions) (hr : RedefinesNothing definitions)
    (hb : Builds .bare definitions [] added types)
    (hb' : Builds (foundationOf definitions) (withoutScalars definitions)
      (foundationOf definitions).types added types') :
    (∃ text, printSchema (keptSchema definitions added types').withDefaultRoots = .ok text) ↔
      ∃ text, printSchema (aloneSchema definitions added types) = .ok text := by
  refine printSchema_both (lists_aloneSchema hb) (lists_withDefaultRoots h hb hb') fun d => ?_
  rw [directives_keptSchema hb', directives_aloneSchema hr hb, List.mem_append, List.mem_append,
    or_comm]

/-- Definitions are accepted beside placeholders if they are accepted alone and redefine nothing. -/
theorem accepted_iff (h : Judged definitions) :
    (∃ extended, Rules.violations (.ofSchema (foundationOf definitions))
          (withoutScalars definitions) = []
        ∧ (foundationOf definitions).extend (withoutScalars definitions) false = .ok extended
        ∧ extended.withDefaultRoots.violations = []
        ∧ ∃ text, printSchema extended.withDefaultRoots = .ok text) ↔
      RedefinesNothing definitions ∧ ∃ alone, ofDocument ⟨definitions, none⟩ false = .ok alone
        ∧ alone.objectRoots.violations = [] ∧ ∃ text, printSchema alone = .ok text := by
  have hx := h.typeExtensions_withoutScalars
  constructor
  · rintro ⟨extended, hv, he, hvalid, hprinted⟩
    obtain ⟨hr, hv⟩ := (violations_kept h).mp hv
    obtain ⟨added, types', hb', rfl⟩ := (extend_eq_ok hx).mp he
    obtain ⟨types, hb⟩ := builds_alone h hb'
    refine ⟨hr, aloneSchema definitions added types, ?_, ?_, ?_⟩
    · exact ofDocument_eq_ok.mpr ⟨fun _ => hv, ofDefinitions_eq_ok.mpr ⟨added, types, hb, rfl⟩⟩
    · exact (valid_both h.toPlain hr hb hb').mp hvalid
    · exact (printed_both h.toPlain hr hb hb').mp hprinted
  · rintro ⟨hr, alone, ha, hvalid, hprinted⟩
    obtain ⟨hv, ha⟩ := ofDocument_eq_ok.mp ha
    obtain ⟨added, types, hb, rfl⟩ := ofDefinitions_eq_ok.mp ha
    obtain ⟨types', hb'⟩ := builds_kept h.toPlain hb
    refine ⟨keptSchema definitions added types', (violations_kept h).mpr ⟨hr, hv rfl⟩, ?_, ?_, ?_⟩
    · exact (extend_eq_ok hx).mpr ⟨added, types', hb', rfl⟩
    · exact (valid_both h.toPlain hr hb hb').mpr hvalid
    · exact (printed_both h.toPlain hr hb hb').mpr hprinted

end Schemas

end SdlAssembly.Model
