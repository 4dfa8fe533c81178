import Mathlib.Data.List.Basic
import SdlAssembly.Proofs.Schema.Walking
import SdlAssembly.Proofs.Schema.Listing
import SdlAssembly.Proofs.StandIns

/-!
# Rules on definitions that are kept

Beside placeholders for their scalars, definitions keep the rules if they do so alone, redefine
nothing that is standard, and have scalars without directives.
-/

namespace SdlAssembly.Model

open Grammar Documents Schemas Schemas.Rules Collecting

section Rules

variable {definitions : List Definition}

/-- What is there before the definitions that are kept. -/
abbrev foundationOf (definitions : List Definition) : Schema :=
  Schema.ofTypes (placeholderTypes definitions)

abbrev aloneScope (definitions : List Definition) : Scope := .of {} definitions

abbrev keptScope (definitions : List Definition) : Scope :=
  .of (.ofSchema (foundationOf definitions)) (withoutScalars definitions)

/-! ## What is looked up -/

theorem filterMap_withoutScalars {α : Type} {read : Definition → Option α}
    (h : ∀ d, (scalarDefinition? d).isSome → read d = none) :
    (withoutScalars definitions).filterMap read = definitions.filterMap read := by
  rw [withoutScalars, List.filterMap_filter]
  refine List.filterMap_congr fun d _ => ?_
  cases hs : scalarDefinition? d with
  | none => rfl
  | some node => exact (h d (by rw [hs]; rfl)).symm

theorem type_of_scalarDefinition? {d : Definition} (h : (scalarDefinition? d).isSome) :
    ∃ node, d = .type node := by
  unfold scalarDefinition? at h
  split at h
  · exact ⟨_, rfl⟩
  · cases h

theorem directiveDefinitions_withoutScalars :
    directiveDefinitions (withoutScalars definitions) = directiveDefinitions definitions := by
  refine filterMap_withoutScalars fun d h => ?_
  obtain ⟨node, rfl⟩ := type_of_scalarDefinition? h
  rfl

theorem directives_keptScope : (keptScope definitions).directives =
    (aloneScope definitions).directives := by
  refine congrArg (standardDirectives.map KnownDirective.ofType ++ ·) ?_
  refine filterMap_withoutScalars fun d h => ?_
  obtain ⟨node, rfl⟩ := type_of_scalarDefinition? h
  rfl

/-- The built-in scalars that a schema has from the start. -/
def alwaysListed : List String := ["String", "Boolean"]

/-- A name under which no schema has a standard type from the start. -/
structure StartsUnlisted (name : String) : Prop where
  scalar : name ∉ alwaysListed
  introspection : isIntrospectionType name = false

theorem StartsUnlisted.of_not_standard {name : String} (hs : isStandardType name = false) :
    StartsUnlisted name := by
  obtain ⟨hb, hi⟩ := Bool.or_eq_false_iff.mp hs
  refine ⟨fun hn => ?_, hi⟩
  have hall : ∀ name ∈ alwaysListed, isBuiltinScalar name := by decide
  cases hb.symm.trans (hall name hn)

theorem StartsUnlisted.not_introspected {name : String} (h : StartsUnlisted name) :
    name ∉ introspected 2 := by
  have hall : ∀ name ∈ introspected 2, name ∈ alwaysListed ∨ isIntrospectionType name := by decide
  intro hn
  rcases hall name hn with hl | hi
  · exact h.scalar hl
  · cases h.introspection.symm.trans hi

theorem existing?_keptScope (h : Plain definitions) {name : String} (hs : StartsUnlisted name) :
    (keptScope definitions).existing? name =
      (placeholderTypes definitions).find? fun t => t.name == name := by
  cases hn : isStandardType name with
  | false => exact find?_ofTypes h.nodup_placeholderTypes hn
  | true =>
      have hplaceholders : ∀ t ∈ placeholderTypes definitions,
          isStandardType t.name = false ∧ t.leadsTo = [] := by
        intro t ht
        obtain ⟨node, hm, rfl⟩ := List.mem_map.mp ht
        exact ⟨h.not_standard hm, rfl⟩
      have hnone : (placeholderTypes definitions).find? (fun t => t.name == name) = none := by
        refine List.find?_eq_none.mpr fun t ht he => ?_
        cases (hplaceholders t ht).1.symm.trans (eq_of_beq he ▸ hn)
      rw [hnone]
      exact find?_ofTypes_unlisted h.nodup_placeholderTypes hplaceholders hn hs.not_introspected

/-- The types that are known are the same. -/
theorem known_keptScope (h : Plain definitions) {name : String} (hs : StartsUnlisted name) :
    (((keptScope definitions).existing? name).isSome
        || ((keptScope definitions).defined? name).isSome) =
      (((aloneScope definitions).existing? name).isSome
        || ((aloneScope definitions).defined? name).isSome) := by
  rw [existing?_keptScope h hs]
  change (_ || (lastDefinition? (withoutScalars definitions) name).isSome) =
    (false || (lastDefinition? definitions name).isSome)
  cases hl : lastDefinition? definitions name with
  | none =>
      obtain ⟨hkept, hplaceholder⟩ := h.undefined hl
      rw [hkept, hplaceholder]
      rfl
  | some node =>
      by_cases hb : node.body = .scalar
      · rw [(h.replaced hl hb).2]
        rfl
      · rw [(h.kept hl hb).1]
        simp

theorem directive?_keptScope (name : String) : (keptScope definitions).directive? name =
    (aloneScope definitions).directive? name := by
  rw [Scope.directive?, directives_keptScope]
  rfl

/-! ## Visits that are judged alike -/

abbrev checkAlone (definitions : List Definition) : Seen → Visit → Seen × List String :=
  check {} (aloneScope definitions)

abbrev checkKept (definitions : List Definition) : Seen → Visit → Seen × List String :=
  check (.ofSchema (foundationOf definitions)) (keptScope definitions)

/-- A visit that gives cause for complaint beside placeholders if it does so without, whatever the
names of types that were met. -/
structure Matched (definitions : List Definition) (v : Visit) : Prop where
  untyped : ∀ node, v ≠ .typeDefinition node
  seen : ∀ seen, (checkKept definitions seen v).1 = (checkAlone definitions seen v).1
  found : ∀ seen, (checkKept definitions seen v).2 = [] ↔ (checkAlone definitions seen v).2 = []

theorem matched_of_eq {v : Visit} (hv : ∀ node, v ≠ .typeDefinition node)
    (h : ∀ seen, checkKept definitions seen v = checkAlone definitions seen v) :
    Matched definitions v :=
  ⟨hv, fun seen => by rw [h], fun seen => by rw [h]⟩

theorem checkReference_keptScope (h : Plain definitions) {name : String} {inTypeSystem : Bool}
    (hs : inTypeSystem = false → StartsUnlisted name) :
    checkReference (keptScope definitions) name inTypeSystem = [] ↔
      checkReference (aloneScope definitions) name inTypeSystem = [] := by
  unfold checkReference
  cases hn : inTypeSystem && isStandardType name with
  | true => simp
  | false =>
      have hunlisted : StartsUnlisted name := by
        rcases Bool.and_eq_false_iff.mp hn with hi | hn
        · exact hs hi
        · exact .of_not_standard hn
      rw [known_keptScope h hunlisted]
      split <;> simp

theorem checkSite_keptScope (seen : Seen) (site : Site) (directives : List Directive) :
    checkSite (keptScope definitions) seen site directives =
      checkSite (aloneScope definitions) seen site directives := by
  have hrepeats : checkRepeats (keptScope definitions) = checkRepeats (aloneScope definitions) := by
    funext before directives
    simp only [checkRepeats, directive?_keptScope]
  unfold checkSite
  rw [hrepeats]

theorem matched_of_isPart (h : Plain definitions) {v : Visit} (hp : v.isPart)
    (hs : ∀ name, v = .reference name false → StartsUnlisted name) : Matched definitions v := by
  cases v with
  | reference name inTypeSystem =>
      refine ⟨by simp, fun seen => by simp only [check], fun seen => ?_⟩
      simp only [check]
      exact checkReference_keptScope h fun he => hs name (by rw [he])
  | directives site directives =>
      exact matched_of_eq (by simp) fun seen => checkSite_keptScope seen site directives
  | directive site directive =>
      refine matched_of_eq (by simp) fun seen => ?_
      simp only [check, checkDirective, checkKnownArguments, directive?_keptScope]
  | directiveEnd directive =>
      refine matched_of_eq (by simp) fun seen => ?_
      simp only [check, checkRequiredArguments, directive?_keptScope]
  | selectedField arguments => exact matched_of_eq (by simp) fun seen => by simp only [check]
  | objectField name again => exact matched_of_eq (by simp) fun seen => by simp only [check]
  | _ => cases hp

theorem matched_directiveDefinition {node : DirectiveDefinition}
    (hs : isStandardDirective node.name = false) :
    Matched definitions (.directiveDefinition node) := by
  refine matched_of_eq (by simp) fun seen => ?_
  have hnone : (foundationOf definitions).directives.any (·.name == node.name) = false := hs
  have hname : checkDirectiveName (.ofSchema (foundationOf definitions)) seen node.name =
      checkDirectiveName {} seen node.name := by
    simp only [checkDirectiveName, Surroundings.ofSchema, hnone]
    rfl
  simp only [check, hname]

/-- Visits that are quiet together, here and there, from the same memory but for the names of types,
and that lead to the same memory but for them. -/
structure Alongside (definitions : List Definition) (seen : Seen) (before before' : List String)
    (here there : List Visit) (after after' : List String) : Prop where
  quiet : Quiet (checkAlone definitions) (seen.typed before) here ↔
    Quiet (checkKept definitions) (seen.typed before') there
  remembered : Quiet (checkAlone definitions) (seen.typed before) here → ∃ seen' : Seen,
    remember (checkAlone definitions) (seen.typed before) here = seen'.typed after
      ∧ remember (checkKept definitions) (seen.typed before') there = seen'.typed after'

theorem Alongside.append {seen : Seen} {before before' after after' : List String}
    {here there rest rest' : List Visit}
    (h : Alongside definitions seen before before' here there after after')
    (hr : ∀ seen' : Seen, Quiet (checkAlone definitions) (seen'.typed after) rest ↔
      Quiet (checkKept definitions) (seen'.typed after') rest') :
    Quiet (checkAlone definitions) (seen.typed before) (here ++ rest) ↔
      Quiet (checkKept definitions) (seen.typed before') (there ++ rest') := by
  rw [quiet_append, quiet_append, h.quiet]
  refine and_congr_right fun hq => ?_
  obtain ⟨seen', hhere, hthere⟩ := h.remembered (h.quiet.mpr hq)
  rw [hhere, hthere]
  exact hr seen'

theorem alongside_matched {items : List Visit} (hm : ∀ v ∈ items, Matched definitions v)
    (seen : Seen) (types types' : List String) :
    Alongside definitions seen types types' items items types types' := by
  have hboth : (Quiet (checkAlone definitions) (seen.typed types) items ↔
        Quiet (checkKept definitions) (seen.typed types') items)
      ∧ (Quiet (checkAlone definitions) (seen.typed types) items → ∃ seen' : Seen,
        remember (checkAlone definitions) (seen.typed types) items = seen'.typed types
          ∧ remember (checkKept definitions) (seen.typed types') items = seen'.typed types') := by
    refine quiet_iff (R := fun s s' => ∃ seen : Seen, s = seen.typed types ∧ s' = seen.typed types')
      ?_ ⟨seen, rfl, rfl⟩
    rintro v hv s s' ⟨seen, rfl, rfl⟩
    obtain ⟨huntyped, hseen, hfound⟩ := hm v hv
    have halone : checkAlone definitions (seen.typed types) v = _ := check_typed huntyped
    have hkept : checkKept definitions (seen.typed types') v = _ := check_typed huntyped
    rw [halone, hkept]
    exact ⟨(hfound seen).symm, fun _ => ⟨_, rfl, congrArg (Seen.typed · types') (hseen seen)⟩⟩
  exact ⟨hboth.1, hboth.2⟩

/-! ## Definitions that are judged alike -/

/-- Definitions that can be judged alike: scalars have no directives, and no operation or fragment
names a standard type that a schema has from the start. -/
structure Judged (definitions : List Definition) : Prop extends Plain definitions where
  bare : ∀ node ∈ definitions.filterMap scalarDefinition?, node.directives = []
  named : ∀ name, .reference name false ∈ visits definitions → StartsUnlisted name

/-- Definitions that take no name of an introspection type or of a standard directive. -/
structure RedefinesNothing (definitions : List Definition) : Prop where
  types : ∀ node ∈ typeDefinitions definitions, isIntrospectionType node.name = false
  directives : ∀ d ∈ directiveDefinitions definitions, isStandardDirective d.name = false

theorem DefinesOnce.not_standard (h : DefinesOnce definitions) (hr : RedefinesNothing definitions)
    {node : TypeNode} (hn : node ∈ typeDefinitions definitions) :
    isStandardType node.name = false := by
  rw [isStandardType, h.notBuiltin node hn, hr.types node hn]
  rfl

theorem matched_of_untyped (h : Judged definitions) (hr : RedefinesNothing definitions)
    {d : Definition} (hd : d ∈ definitions) (ht : ∀ node, d ≠ .type node) :
    ∀ v ∈ ofDefinition d, Matched definitions v := by
  have hpart : ∀ v ∈ ofDefinition d, v.isPart → Matched definitions v := fun v hv hp =>
    matched_of_isPart h.toPlain hp fun name he =>
      h.named name (List.mem_flatMap.mpr ⟨d, hd, he ▸ hv⟩)
  cases d with
  | type node => exact (ht node rfl).elim
  | operation d => exact fun v hv => hpart v hv (isPart_of_mem_operation v hv)
  | fragment d => exact fun v hv => hpart v hv (isPart_of_mem_fragment v hv)
  | schema node =>
      intro v hv
      rcases List.mem_cons.mp hv with rfl | hm
      · exact matched_of_eq (by simp) fun seen => by simp only [check]
      · exact hpart v hv (isPart_ofSchema node v hm)
  | directive node =>
      intro v hv
      rcases List.mem_cons.mp hv with rfl | hm
      · exact matched_directiveDefinition (hr.directives node (mem_directiveDefinitions.mpr hd))
      · exact hpart v hv (isPart_ofInputs _ _ v hm)
  | schemaExtension node =>
      have hnone : (schemaNodes definitions).2 = [] := h.schema
      have hm : node ∈ (schemaNodes definitions).2 := List.mem_filterMap.mpr ⟨_, hd, rfl⟩
      rw [hnone] at hm
      cases hm
  | typeExtension node =>
      have hm : node ∈ typeExtensions definitions := List.mem_filterMap.mpr ⟨_, hd, rfl⟩
      rw [h.types] at hm
      cases hm

theorem checkMembers_keptScope {node : TypeNode}
    (hx : (keptScope definitions).existing? node.name = none) (seen : Seen) :
    checkMembers (keptScope definitions) seen node =
      checkMembers (aloneScope definitions) seen node := by
  have hnone : ∀ name members, existingMember (keptScope definitions) node.name name members =
      existingMember (aloneScope definitions) node.name name members := by
    intro name members
    rw [existingMember, hx]
    rfl
  unfold checkMembers
  split <;> simp only [checkValues, checkFields, hnone]

theorem ofType_bare {node : TypeNode} (hb : node.body = .scalar) (hd : node.directives = []) :
    ofType false node = [] := by
  rw [ofType, hb, hd]
  rfl

theorem withoutScalars_cons_scalar {node : TypeNode} {rest : List Definition}
    (hb : node.body = .scalar) : withoutScalars (.type node :: rest) = withoutScalars rest := by
  rw [withoutScalars, List.filter_cons_of_neg, withoutScalars]
  rw [scalarDefinition?_eq_some hb]
  simp

theorem withoutScalars_cons {d : Definition} {rest : List Definition}
    (hd : scalarDefinition? d = none) : withoutScalars (d :: rest) = d :: withoutScalars rest := by
  rw [withoutScalars, List.filter_cons_of_pos, withoutScalars]
  rw [hd]
  rfl

section TypeDefinitions

variable {node : TypeNode} {types types' : List String}

/-- The definition of a scalar is judged like none. -/
theorem alongside_scalar (hb : node.body = .scalar) (hd : node.directives = []) (seen : Seen)
    (ht : node.name ∉ types) : Alongside definitions seen types types' (ofDefinition (.type node)) []
      (node.name :: types) types' := by
  have hcheck : checkAlone definitions (seen.typed types) (.typeDefinition node) =
      (seen.typed (node.name :: types), []) := by
    refine (check_typeDefinition rfl ht).trans ?_
    rw [checkMembers, hb]
    rfl
  rw [ofDefinition, ofType_bare hb hd]
  constructor
  · simp [Quiet, hcheck]
  · exact fun _ => ⟨seen, by simp [remember, hcheck], rfl⟩

/-- The definition of a type that is no scalar is judged alike. -/
theorem alongside_typeDefinition (h : Judged definitions) (hr : RedefinesNothing definitions)
    (hd : .type node ∈ definitions) (hb : node.body ≠ .scalar) (seen : Seen)
    (ht : node.name ∉ types) (ht' : node.name ∉ types') :
    Alongside definitions seen types types' (ofDefinition (.type node)) (ofDefinition (.type node))
      (node.name :: types) (node.name :: types') := by
  have hn : node ∈ typeDefinitions definitions := mem_typeDefinitions.mpr hd
  have hl : lastDefinition? definitions node.name = some node :=
    (lastDefinition?_eq_some h.nodup).mpr ⟨hn, rfl⟩
  have hx : (keptScope definitions).existing? node.name = none := by
    have hs := StartsUnlisted.of_not_standard (h.toDefinesOnce.not_standard hr hn)
    rw [existing?_keptScope h.toPlain hs, (h.kept hl hb).2]
  have hmembers : ∀ (scope : Scope) types,
      checkMembers scope ((seen.typed types).typed (node.name :: (seen.typed types).types)) node =
        ((checkMembers scope seen node).1.typed (node.name :: types),
          (checkMembers scope seen node).2) := fun scope types => by
    rw [typed_typed, typed_types, checkMembers_typed]
  have halone : checkAlone definitions (seen.typed types) (.typeDefinition node) =
      ((checkMembers (aloneScope definitions) seen node).1.typed (node.name :: types),
        (checkMembers (aloneScope definitions) seen node).2) :=
    (check_typeDefinition rfl ht).trans (hmembers _ types)
  have hkept : checkKept definitions (seen.typed types') (.typeDefinition node) =
      ((checkMembers (aloneScope definitions) seen node).1.typed (node.name :: types'),
        (checkMembers (aloneScope definitions) seen node).2) := by
    rw [← checkMembers_keptScope hx]
    exact (check_typeDefinition hx ht').trans (hmembers _ types')
  have hparts : ∀ v ∈ ofType false node, Matched definitions v := fun v hv =>
    matched_of_isPart h.toPlain (isPart_ofType node v hv) fun name he =>
      h.named name (List.mem_flatMap.mpr ⟨_, hd, List.mem_cons_of_mem _ (he ▸ hv)⟩)
  have hrest := alongside_matched hparts (checkMembers (aloneScope definitions) seen node).1
    (node.name :: types) (node.name :: types')
  rw [ofDefinition]
  constructor
  · simp only [Quiet, halone, hkept]
    exact and_congr_right fun _ => hrest.quiet
  · intro hq
    simp only [Quiet, halone] at hq
    simp only [remember, List.foldl_cons, halone, hkept]
    exact hrest.remembered hq.2

end TypeDefinitions

/-- What is kept of definitions is judged like all of them. -/
theorem quiet_kept (h : Judged definitions) (hr : RedefinesNothing definitions)
    {rest : List Definition} (hsub : rest ⊆ definitions)
    (hnodup : ((typeDefinitions rest).map TypeNode.name).Nodup) (seen : Seen)
    {types types' : List String}
    (hfresh : ∀ node ∈ typeDefinitions rest, node.name ∉ types ∧ node.name ∉ types') :
    Quiet (checkAlone definitions) (seen.typed types) (visits rest) ↔
      Quiet (checkKept definitions) (seen.typed types') (visits (withoutScalars rest)) := by
  induction rest generalizing seen types types' with
  | nil => simp [visits, withoutScalars, Quiet]
  | cons d rest ih =>
      obtain ⟨hd, hrest⟩ := List.cons_subset.mp hsub
      rw [visits_cons]
      by_cases ht : ∃ node, d = .type node
      · obtain ⟨node, rfl⟩ := ht
        have hcons : typeDefinitions (.type node :: rest) = node :: typeDefinitions rest := rfl
        rw [hcons] at hnodup hfresh
        obtain ⟨hnew, hnodup⟩ := List.nodup_cons.mp hnodup
        obtain ⟨⟨ht, ht'⟩, hfresh⟩ := List.forall_mem_cons.mp hfresh
        have hne : ∀ other ∈ typeDefinitions rest, other.name ≠ node.name := fun other ho he =>
          hnew (he ▸ List.mem_map_of_mem ho)
        by_cases hb : node.body = .scalar
        · have hbare := h.bare node
            (List.mem_filterMap.mpr ⟨_, hd, scalarDefinition?_eq_some hb⟩)
          rw [withoutScalars_cons_scalar hb, ← List.nil_append (visits (withoutScalars rest))]
          refine (alongside_scalar hb hbare seen ht).append fun seen' => ?_
          exact ih hrest hnodup seen' fun other ho =>
            ⟨by simp [hne other ho, (hfresh other ho).1], (hfresh other ho).2⟩
        · rw [withoutScalars_cons (scalarDefinition?_eq_none hb), visits_cons]
          refine (alongside_typeDefinition h hr hd hb seen ht ht').append fun seen' => ?_
          exact ih hrest hnodup seen' fun other ho => ⟨by simp [hne other ho, (hfresh other ho).1],
            by simp [hne other ho, (hfresh other ho).2]⟩
      · have hs : scalarDefinition? d = none := by
          cases hd : scalarDefinition? d with
          | none => rfl
          | some node => exact (ht (type_of_scalarDefinition? (by rw [hd]; rfl))).elim
        have hcons : typeDefinitions (d :: rest) = typeDefinitions rest := by
          cases d with
          | type node => exact (ht ⟨node, rfl⟩).elim
          | _ => rfl
        rw [hcons] at hnodup hfresh
        rw [withoutScalars_cons hs, visits_cons]
        refine (alongside_matched (matched_of_untyped h hr hd fun node he => ht ⟨node, he⟩) seen
          types types').append fun seen' => ?_
        exact ih hrest hnodup seen' hfresh

/-! ## The rules as a whole -/

/-- The types for introspection are there already. -/
theorem existing?_introspection (h : Plain definitions) {name : String}
    (hi : isIntrospectionType name) : ((keptScope definitions).existing? name).isSome := by
  have hg : Grounded (placeholderTypes definitions) := by
    refine ⟨h.nodup_placeholderTypes, fun t ht hs => ?_⟩
    obtain ⟨node, hn, rfl⟩ := List.mem_map.mp ht
    cases (h.not_standard hn).symm.trans hs
  exact (arrange_lists _ h.nodup_placeholderTypes).type?_introspection (keepsStandard_target? hg) hi

/-- A quiet head of a definition that is kept. -/
theorem exists_of_quiet {items : List Definition} {d : Definition} {v : Visit}
    (hq : Quiet (checkKept definitions) {} (visits items)) (hd : d ∈ items)
    (hv : v ∈ ofDefinition d) : ∃ seen, (checkKept definitions seen v).2 = [] :=
  hq.exists_of_mem (List.mem_flatMap.mpr ⟨d, hd, hv⟩)

/-- Definitions that are kept beside placeholders redefine nothing that is there. -/
theorem redefinesNothing_of_quiet (h : Judged definitions)
    (hq : Quiet (checkKept definitions) {} (visits (withoutScalars definitions))) :
    RedefinesNothing definitions := by
  constructor
  · intro node hn
    by_cases hb : node.body = .scalar
    · exact h.notReserved node (mem_scalars.mpr ⟨hn, hb⟩)
    · have hd := mem_typeDefinitions.mp (typeDefinitions_withoutScalars.mpr ⟨hn, hb⟩)
      obtain ⟨seen, hs⟩ := exists_of_quiet hq hd (List.mem_cons_self ..)
      cases hi : isIntrospectionType node.name with
      | false => rfl
      | true =>
          have hx := existing?_introspection h.toPlain hi
          simp [check, checkTypeName, hx] at hs
  · intro node hn
    rw [← directiveDefinitions_withoutScalars] at hn
    obtain ⟨seen, hs⟩ := exists_of_quiet hq (mem_directiveDefinitions.mp hn) (List.mem_cons_self ..)
    cases hi : isStandardDirective node.name with
    | false => rfl
    | true =>
        have hx : (foundationOf definitions).directives.any (·.name == node.name) := hi
        simp [check, checkDirectiveName, Surroundings.ofSchema, hx] at hs

/-- The rules on what is kept of definitions are the rules on the definitions alone, and that they
redefine nothing. -/
theorem violations_kept (h : Judged definitions) :
    violations (.ofSchema (foundationOf definitions)) (withoutScalars definitions) = [] ↔
      RedefinesNothing definitions ∧ violations {} definitions = [] := by
  rw [Rules.violations_eq_nil, Rules.violations_eq_nil]
  constructor
  · intro hq
    have hr := redefinesNothing_of_quiet h hq
    exact ⟨hr, (quiet_kept h hr (List.Subset.refl _) h.nodup {} (by simp)).mpr hq⟩
  · rintro ⟨hr, hq⟩
    exact (quiet_kept h hr (List.Subset.refl _) h.nodup {} (by simp)).mp hq

end Rules

end SdlAssembly.Model
