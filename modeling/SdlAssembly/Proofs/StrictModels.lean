import Mathlib.Data.List.Basic
import SdlAssembly.Proofs.StrictBuilding

/-!
# Strict models

Strict models of definitions are accepted like the definitions themselves. They pass by the
directives of scalars, which placeholders stand in for, and they redefine nothing that is standard.
-/

namespace SdlAssembly.Model

open Grammar Documents Schemas Except

/-! ## Directives of scalars -/

/-- A definition of a type, without directives if it is a scalar. -/
def bareNode (node : TypeNode) : TypeNode :=
  match node.body with
  | .scalar => { node with directives := [] }
  | _ => node

/-- Definitions without the directives of scalars. -/
def bareScalars (definitions : List Definition) : List Definition :=
  definitions.map fun
    | .type node => .type (bareNode node)
    | d => d

section Bare

variable {definitions : List Definition}

@[simp] theorem bareNode_name (node : TypeNode) : (bareNode node).name = node.name := by
  unfold bareNode
  split <;> rfl

@[simp] theorem bareNode_body (node : TypeNode) : (bareNode node).body = node.body := by
  unfold bareNode
  split
  · rename_i hb
    exact hb.symm ▸ rfl
  · rfl

theorem bareNode_of_ne {node : TypeNode} (h : node.body ≠ .scalar) : bareNode node = node := by
  unfold bareNode
  split
  · exact (h (by assumption)).elim
  · rfl

theorem bareNode_directives {node : TypeNode} (h : node.body = .scalar) :
    (bareNode node).directives = [] := by
  rw [bareNode, h]

theorem filterMap_bareScalars {α : Type} {read : Definition → Option α} {change : α → α}
    (ht : ∀ node, read (.type (bareNode node)) = (read (.type node)).map change)
    (hd : ∀ d, (∀ node, d ≠ .type node) → (read d).map change = read d) :
    (bareScalars definitions).filterMap read = (definitions.filterMap read).map change := by
  rw [bareScalars, List.filterMap_map, List.map_filterMap]
  refine List.filterMap_congr fun d _ => ?_
  cases d with
  | type node => exact ht node
  | _ => exact (hd _ (by simp)).symm

theorem typeDefinitions_bareScalars :
    typeDefinitions (bareScalars definitions) = (typeDefinitions definitions).map bareNode :=
  filterMap_bareScalars (fun _ => rfl) fun d h => by
    cases d with
    | type node => exact (h node rfl).elim
    | _ => rfl

theorem scalars_bareScalars : (bareScalars definitions).filterMap scalarDefinition? =
    (definitions.filterMap scalarDefinition?).map bareNode := by
  refine filterMap_bareScalars (fun node => ?_) fun d h => ?_
  · by_cases hb : node.body = .scalar
    · rw [scalarDefinition?_eq_some hb, scalarDefinition?_eq_some (by simp [hb])]
      rfl
    · rw [scalarDefinition?_eq_none hb, scalarDefinition?_eq_none (by simp [hb])]
      rfl
  · cases d with
    | type node => exact (h node rfl).elim
    | _ => rfl

/-- What is read of other definitions stays. -/
theorem filterMap_bareScalars_untyped {α : Type} {read : Definition → Option α}
    (h : ∀ node, read (.type node) = none) :
    (bareScalars definitions).filterMap read = definitions.filterMap read := by
  have hchange : (bareScalars definitions).filterMap read = (definitions.filterMap read).map id :=
    filterMap_bareScalars (fun node => by rw [h, h]; rfl) fun d _ => Option.map_id_apply
  rwa [List.map_id] at hchange

theorem withoutScalars_bareScalars :
    withoutScalars (bareScalars definitions) = withoutScalars definitions := by
  induction definitions with
  | nil => rfl
  | cons d definitions ih =>
      by_cases ht : ∃ node, d = .type node ∧ node.body = .scalar
      · obtain ⟨node, rfl, hb⟩ := ht
        have hcons : bareScalars (.type node :: definitions) =
            .type (bareNode node) :: bareScalars definitions := rfl
        rw [hcons, withoutScalars_cons_scalar (by simp [hb]), withoutScalars_cons_scalar hb, ih]
      · have hcons : bareScalars (d :: definitions) = d :: bareScalars definitions := by
          cases d with
          | type node =>
              have hb : node.body ≠ .scalar := fun hb => ht ⟨node, rfl, hb⟩
              change Definition.type (bareNode node) :: _ = _
              rw [bareNode_of_ne hb]
              rfl
          | _ => rfl
        have hnone : scalarDefinition? d = none := by
          cases d with
          | type node => exact scalarDefinition?_eq_none fun hb => ht ⟨node, rfl, hb⟩
          | _ => rfl
        rw [hcons, withoutScalars_cons hnone, withoutScalars_cons hnone, ih]

theorem placeholderTypes_bareScalars :
    placeholderTypes (bareScalars definitions) = placeholderTypes definitions := by
  rw [placeholderTypes, scalars_bareScalars, List.map_map, placeholderTypes]
  refine List.map_congr_left fun node hn => ?_
  have hb := (mem_scalars.mp hn).2
  rw [Function.comp_apply, bareNode, hb]
  rfl

/-- The directives of scalars refer to nothing. -/
theorem named_bareScalars {name : String}
    (h : Rules.Visit.reference name false ∈ Rules.visits (bareScalars definitions)) :
    Rules.Visit.reference name false ∈ Rules.visits definitions := by
  obtain ⟨d', hd', hv⟩ := List.mem_flatMap.mp h
  obtain ⟨d, hd, rfl⟩ := List.mem_map.mp hd'
  refine List.mem_flatMap.mpr ⟨d, hd, ?_⟩
  cases d with
  | type node =>
      by_cases hb : node.body = .scalar
      · have hparts : Rules.ofType false (bareNode node) = [] :=
          ofType_bare (by simp [hb]) (bareNode_directives hb)
        simp [Rules.ofDefinition, hparts] at hv
      · simpa [bareNode_of_ne hb] using hv
  | _ => exact hv

theorem DefinesOnce.bareScalars (h : DefinesOnce definitions) :
    DefinesOnce (bareScalars definitions) := by
  constructor
  · rw [typeDefinitions_bareScalars, List.map_map]
    simpa [Function.comp_def] using h.nodup
  · rw [typeDefinitions_bareScalars]
    simpa using h.notBuiltin

theorem redefinesNothing_bareScalars :
    RedefinesNothing (bareScalars definitions) ↔ RedefinesNothing definitions := by
  constructor
  · rintro ⟨ht, hd⟩
    rw [typeDefinitions_bareScalars] at ht
    rw [directiveDefinitions, filterMap_bareScalars_untyped fun _ => rfl] at hd
    exact ⟨by simpa using ht, hd⟩
  · rintro ⟨ht, hd⟩
    refine ⟨?_, ?_⟩
    · rw [typeDefinitions_bareScalars]
      simpa using ht
    · rw [directiveDefinitions, filterMap_bareScalars_untyped fun _ => rfl]
      exact hd

/-- Without the directives of scalars, definitions can be judged alike. -/
theorem judged_bareScalars (h : Plain definitions)
    (hn : ∀ name, .reference name false ∈ Rules.visits definitions → StartsUnlisted name) :
    Judged (bareScalars definitions) := by
  have hunextended : Unextended (bareScalars definitions) := by
    refine ⟨?_, (filterMap_bareScalars_untyped fun _ => rfl).trans h.schema⟩
    rw [typeExtensions, filterMap_bareScalars_untyped fun _ => rfl]
    exact h.types
  have hplain : Plain (bareScalars definitions) := by
    refine ⟨h.toDefinesOnce.bareScalars, hunextended, ?_⟩
    rw [scalars_bareScalars]
    intro node hm
    obtain ⟨scalar, hs, rfl⟩ := List.mem_map.mp hm
    rw [bareNode_name]
    exact h.notReserved scalar hs
  refine ⟨hplain, ?_, fun name hm => hn name (named_bareScalars hm)⟩
  rw [scalars_bareScalars]
  intro node hm
  obtain ⟨scalar, hs, rfl⟩ := List.mem_map.mp hm
  exact bareNode_directives (mem_scalars.mp hs).2

end Bare

/-! ## Strict models -/

/-- The documents make a strict model with a schema. -/
def BuildsStrictly (documents : List NamedDocument) : Prop :=
  ∃ model schema, (assemble (some documents) true).value = .ok model
    ∧ model.build.value = .ok schema

instance (documents : List NamedDocument) : Decidable (BuildsStrictly documents) :=
  match hm : (assemble (some documents) true).value with
  | .error _ => .isFalse fun ⟨_, _, h, _⟩ => nomatch hm.symm.trans h
  | .ok model =>
    match hs : model.build.value with
    | .error _ => .isFalse fun ⟨_, _, h, h'⟩ => by
        cases hm.symm.trans h
        cases hs.symm.trans h'
    | .ok schema => .isTrue ⟨model, schema, hm, hs⟩

/-- The definitions of documents have a valid schema of their own. -/
def ValidAlone (documents : List NamedDocument) : Prop :=
  ∃ alone, ofDocument ⟨definitionsOf documents, none⟩ false = .ok alone ∧ alone.violations = []

instance (documents : List NamedDocument) : Decidable (ValidAlone documents) :=
  match ha : ofDocument ⟨definitionsOf documents, none⟩ false with
  | .error _ => .isFalse fun ⟨_, h, _⟩ => nomatch ha.symm.trans h
  | .ok alone =>
    if hv : alone.violations = [] then .isTrue ⟨alone, ha, hv⟩
    else .isFalse fun ⟨_, h, h'⟩ => by
      cases ha.symm.trans h
      exact hv h'

section Strict

variable {documents : List NamedDocument}

/-- The schema of a strict model is built from its placeholders and the other definitions. -/
theorem build_strict_eq_ok {model : TypeSystem} {definitions : List Definition}
    (hm : model.Defines definitions true) (hd : DefinesOnce definitions) :
    (∃ schema, model.build.value = .ok schema) ↔
      ∃ extended, Rules.violations (.ofSchema (foundationOf definitions))
          (withoutScalars definitions) = []
        ∧ (foundationOf definitions).extend (withoutScalars definitions) false = .ok extended
        ∧ extended.withDefaultRoots.violations = []
        ∧ ∃ text, printSchema extended.withDefaultRoots = .ok text := by
  constructor
  · rintro ⟨schema, hs⟩
    obtain ⟨extended, he, rfl, hvalid, hprinted⟩ := build_eq_ok.mp hs
    obtain ⟨hv, hextend⟩ := extended_eq_ok.mp he
    rw [hm.foundation hd, hm.retained, hm.strict] at hv hextend
    exact ⟨extended, hv rfl, hextend, hvalid hm.strict, hprinted⟩
  · rintro ⟨extended, hv, hextend, hvalid, hprinted⟩
    refine ⟨_, build_eq_ok.mpr ⟨extended, extended_eq_ok.mpr ?_, rfl, fun _ => hvalid, hprinted⟩⟩
    rw [hm.foundation hd, hm.retained, hm.strict]
    exact ⟨fun _ => hv, hextend⟩

/-- A strict model of definitions has a schema if the definitions redefine nothing and, without the
directives of scalars, have a valid schema of their own that can be printed. Their operations and
fragments name no standard type that a schema has from the start. -/
theorem buildsStrictly_iff (hdocs : ∀ d ∈ documents, ¬annotates d)
    (honce : DefinesOnce (definitionsOf documents))
    (hnamed : ∀ name, .reference name false ∈ Rules.visits (definitionsOf documents) →
      StartsUnlisted name) :
    BuildsStrictly documents ↔ RedefinesNothing (definitionsOf documents)
      ∧ ∃ alone, ofDocument ⟨bareScalars (definitionsOf documents), none⟩ false = .ok alone
        ∧ alone.objectRoots.violations = [] ∧ ∃ text, printSchema alone = .ok text := by
  have haccepted (h : Plain (definitionsOf documents)) :=
    accepted_iff (judged_bareScalars h hnamed)
  have hfoundation : foundationOf (bareScalars (definitionsOf documents)) =
      foundationOf (definitionsOf documents) :=
    congrArg Schema.ofTypes placeholderTypes_bareScalars
  rw [withoutScalars_bareScalars, hfoundation, redefinesNothing_bareScalars] at haccepted
  constructor
  · rintro ⟨model, schema, hm, hs⟩
    have hdefines := assemble_definitions hdocs hm
    refine (haccepted (plain_definitionsOf hdocs honce hdefines)).mp ?_
    exact (build_strict_eq_ok hdefines honce).mp ⟨schema, hs⟩
  · rintro ⟨hr, halone⟩
    have hreserved : ∀ node ∈ (definitionsOf documents).filterMap scalarDefinition?,
        isIntrospectionType node.name = false := fun node hn => hr.types node (mem_scalars.mp hn).1
    obtain ⟨model, hm⟩ := assemble_definitions_isOk hdocs hreserved true
    have hdefines := assemble_definitions hdocs hm
    have hplain := plain_definitionsOf hdocs honce hdefines
    obtain ⟨schema, hs⟩ := (build_strict_eq_ok hdefines honce).mpr ((haccepted hplain).mpr ⟨hr, halone⟩)
    exact ⟨model, schema, hm, hs⟩

end Strict

theorem buildsStrictly_specified : RedefinesNothing (definitionsOf specified)
    ∧ ∃ alone, ofDocument ⟨bareScalars (definitionsOf specified), none⟩ false = .ok alone
      ∧ alone.objectRoots.violations = [] ∧ ∃ text, printSchema alone = .ok text := by
  have hnamed : ∀ v ∈ Rules.visits (definitionsOf specified), ∀ name,
      v = .reference name false → StartsUnlisted name := by
    simp [specified, definitionsOf, Rules.visits, Rules.ofDefinition, Rules.ofType, Rules.ofField,
      Rules.ofInput, Rules.atNode, Rules.ofDirectives, Rules.ofDirective, Rules.ofArguments,
      Rules.ofValue, Rules.ofDefault]
  exact (buildsStrictly_iff (by decide) definesOnce_specified fun name hm =>
    hnamed _ hm name rfl).mp (by decide +kernel)

def query : NamedDocument :=
  ⟨⟨[.type ⟨none, "Query", [], .object [] [⟨none, "a", [], .named "Int", []⟩]⟩], none⟩, none⟩

/-- A standard directive that is defined once more. -/
def redefining : List NamedDocument :=
  [⟨⟨[.directive ⟨none, "skip", [], false, ["FIELD"]⟩], none⟩, none⟩, query]

/-- A scalar with a directive that is not defined. -/
def undeclared : List NamedDocument :=
  [query, ⟨⟨[.type ⟨none, "A", [⟨"unknown", [], none⟩], .scalar⟩], none⟩, none⟩]

/-- An enum with the name of a root type. -/
def enumerated : List NamedDocument :=
  [query, ⟨⟨[.type ⟨none, "Mutation", [], .enum [⟨none, "A", []⟩]⟩], none⟩, none⟩]

/-- A fragment on a scalar that every schema has. -/
def fragmented : List NamedDocument :=
  [query, ⟨⟨[.fragment ⟨none, "F", "Boolean", [], [.field none "a" [] [] none]⟩], none⟩, none⟩]

/-- A default that is a list, which cannot be printed as a value of a scalar. -/
def unprintable : List NamedDocument :=
  [⟨⟨[.type ⟨none, "A", [], .scalar⟩, .type ⟨none, "Query", [], .object [] [⟨none, "a",
    [⟨none, "x", .named "A", some (.list [.int "1"]), []⟩], .named "Int", []⟩]⟩], none⟩, none⟩]

/-- Definitions of each name once that are accepted in one of the two ways only. -/
def Differ (documents : List NamedDocument) : Prop :=
  (∀ d ∈ documents, ¬annotates d) ∧ DefinesOnce (definitionsOf documents)
    ∧ ¬(BuildsStrictly documents ↔ ValidAlone documents)

/-- Strict models and their definitions alone are not accepted together. -/
theorem buildsStrictly_differs : Differ redefining ∧ Differ undeclared ∧ Differ enumerated
    ∧ Differ fragmented ∧ Differ unprintable := by
  refine ⟨⟨by decide, ⟨by decide, by decide⟩, ?_⟩, ⟨by decide, ⟨by decide, by decide⟩, ?_⟩,
    ⟨by decide, ⟨by decide, by decide⟩, ?_⟩, ⟨by decide, ⟨by decide, by decide⟩, ?_⟩,
    ⟨by decide, ⟨by decide, by decide⟩, ?_⟩⟩
  · decide +kernel
  · decide +kernel
  · decide +kernel
  · decide +kernel
  · decide +kernel

end SdlAssembly.Model
