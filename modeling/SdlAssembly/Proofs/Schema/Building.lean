import SdlAssembly.Proofs.Outcomes
import SdlAssembly.Proofs.Schema.Sources
import SdlAssembly.Schema.Roots

/-!
# What a built schema is made of

Building succeeds where each part can be read, and the types of the result are what the sources of
their names give.
-/

namespace SdlAssembly.Schemas

open Grammar Except

/-! ## Parts -/

/-- The root types that definitions bind, later bindings after earlier ones. -/
def bindings (definitions : List Definition) : List RootBinding :=
  ((schemaNodes definitions).1.getLast?.toList ++ (schemaNodes definitions).2).flatMap (·.roots)

def Schema.bind (schema : Schema) (bindings : List RootBinding) : Schema :=
  bindings.foldl (fun schema binding => schema.withRoot binding.operation (some binding.type))
    schema

/-- A schema that definitions were added to, without the types. -/
def Schema.grown (base : Schema) (definitions : List Definition) (unchecked : Bool)
    (added : List DirectiveType) : Schema :=
  { base.bind (bindings definitions) with
    description := match (schemaNodes definitions).1.getLast? with
      | some node => node.description.map (·.text)
      | none => base.description
    directives := base.directives ++ added
    defined := base.defined || !(schemaNodes definitions).1.isEmpty
    unchecked := unchecked
    types := [] }

/-- What is read from definitions on top of a base. -/
structure Builds (base : Schema) (definitions : List Definition) (existing : List NamedType)
    (added : List DirectiveType) (types : List NamedType) : Prop where
  extended : base.types.mapM (extendExisting (typeExtensions definitions)) = .ok existing
  readAtOnce : ∀ node ∈ typeDefinitions definitions,
    (sourceOf (typeExtensions definitions) node).readAtOnce = .ok ()
  roots : ∀ binding ∈ bindings definitions,
    ((sourcesOf existing definitions).find? binding.type).isSome
  directives : (directiveDefinitions definitions).mapM
    (directiveType (sourcesOf existing definitions)) = .ok added
  types : (sourcesOf existing definitions).mapM
    (fun source => source.2.type (sourcesOf existing definitions)) = .ok types

section Parts

variable {base schema schema' : Schema} {definitions : List Definition} {unchecked : Bool}
  {adjust : Schema → Schema} {sources : Sources}

theorem bindRoots_eq_ok {nodes : List SchemaNode} : bindRoots sources schema nodes = .ok schema' ↔
    (∀ binding ∈ nodes.flatMap (·.roots), (sources.find? binding.type).isSome)
      ∧ schema' = schema.bind (nodes.flatMap (·.roots)) := by
  unfold bindRoots Schema.bind
  induction nodes.flatMap (·.roots) generalizing schema with
  | nil =>
      constructor
      · intro h
        cases h
        exact ⟨by simp, rfl⟩
      · rintro ⟨-, rfl⟩
        rfl
  | cons binding rest ih =>
      rw [List.foldlM_cons, List.forall_mem_cons, List.foldl_cons, and_assoc, ← ih]
      constructor
      · intro h
        obtain ⟨middle, hm, h⟩ := bind_eq_ok h
        obtain ⟨⟨⟩, hc, hm⟩ := bind_eq_ok hm
        cases hm
        exact ⟨check_eq_ok.mp hc, h⟩
      · rintro ⟨hc, h⟩
        have hc : sources.check (.named binding.type) = .ok () := check_eq_ok.mpr hc
        rw [hc]
        exact h

theorem bind_append (schema : Schema) (first second : List RootBinding) :
    schema.bind (first ++ second) = (schema.bind first).bind second := List.foldl_append

/-- Building succeeds where each part can be read. -/
theorem extendWith_eq_ok (hd : describesTypes definitions) :
    extendWith base definitions unchecked adjust = .ok schema ↔
      ∃ existing added types, Builds base definitions existing added types
        ∧ schema = (adjust (base.grown definitions unchecked added)).arrange types := by
  unfold extendWith
  rw [hd]
  constructor
  · intro h
    obtain ⟨existing, he, h⟩ := bind_eq_ok h
    obtain ⟨⟨⟩, hr, h⟩ := bind_eq_ok h
    obtain ⟨first, hf, h⟩ := bind_eq_ok h
    obtain ⟨rooted, hs, h⟩ := bind_eq_ok h
    obtain ⟨added, ha, h⟩ := bind_eq_ok h
    obtain ⟨types, ht, h⟩ := bind_eq_ok h
    cases h
    obtain ⟨hfirst, rfl⟩ := bindRoots_eq_ok.mp hf
    obtain ⟨hsecond, rfl⟩ := bindRoots_eq_ok.mp hs
    refine ⟨existing, added, types, ⟨he, forM_eq_ok.mp hr, ?_, ha, ht⟩, ?_⟩
    · intro binding hb
      rw [bindings, List.flatMap_append] at hb
      exact (List.mem_append.mp hb).elim (hfirst binding) (hsecond binding)
    · rw [Schema.grown, bindings, List.flatMap_append, bind_append]
      rfl
  · rintro ⟨existing, added, types, hb, rfl⟩
    have hroots := hb.roots
    rw [bindings, List.flatMap_append] at hroots
    have hfirst b (hm : b ∈ _) := hroots b (List.mem_append_left _ hm)
    have hsecond b (hm : b ∈ _) := hroots b (List.mem_append_right _ hm)
    refine (bind_of_ok hb.extended).trans ?_
    refine (bind_of_ok (forM_eq_ok.mpr hb.readAtOnce)).trans ?_
    refine (bind_of_ok (bindRoots_eq_ok.mpr ⟨hfirst, rfl⟩)).trans ?_
    refine (bind_of_ok (bindRoots_eq_ok.mpr ⟨hsecond, rfl⟩)).trans ?_
    refine (bind_of_ok hb.directives).trans ?_
    refine (bind_of_ok hb.types).trans ?_
    rw [Schema.grown, bindings, List.flatMap_append, bind_append]
    rfl

end Parts

/-! ## Definitions that say nothing of types -/

section Untyped

variable {base schema : Schema} {definitions : List Definition} {unchecked : Bool}
  {adjust : Schema → Schema} {existing types : List NamedType} {added : List DirectiveType}

theorem extendExisting_nil (t : NamedType) : extendExisting [] t = .ok t := by
  unfold extendExisting
  cases hs : t.shape with
  | scalar specifiedBy =>
      by_cases hk : isStandardType t.name
      · simp [hk]
      · simp only [hk, Bool.false_eq_true, ↓reduceIte]
        change Except.ok { t with shape := .scalar specifiedBy } = _
        rw [← hs]
  | _ => rfl

/-- An extended type keeps its name and stays a scalar, and a standard type stays as it is. -/
theorem extendExisting_eq_ok {extensions : List TypeNode} {t t' : NamedType}
    (h : extendExisting extensions t = .ok t') : t'.name = t.name
      ∧ (isStandardType t.name → t' = t)
      ∧ ∀ url, t.shape = .scalar url → ∃ url, t'.shape = .scalar url := by
  unfold extendExisting at h
  split at h
  · split at h
    · cases h
      exact ⟨rfl, fun _ => rfl, fun url hs => ⟨url, hs⟩⟩
    · rename_i hs
      obtain ⟨given, -, h⟩ := bind_eq_ok h
      obtain ⟨⟨⟩, -, h⟩ := bind_eq_ok h
      cases h
      exact ⟨rfl, fun hk => (hs hk).elim, fun _ _ => ⟨_, rfl⟩⟩
  · cases h
    exact ⟨rfl, fun _ => rfl, fun url hs => ⟨url, hs⟩⟩

theorem parts_of_not_describesTypes (h : describesTypes definitions = false) :
    typeDefinitions definitions = [] ∧ typeExtensions definitions = []
      ∧ directiveDefinitions definitions = [] ∧ schemaNodes definitions = ([], []) := by
  induction definitions with
  | nil => exact ⟨rfl, rfl, rfl, rfl⟩
  | cons definition definitions ih =>
      obtain ⟨hd, h⟩ := Bool.or_eq_false_iff.mp h
      obtain ⟨ht, he, hds, hs⟩ := ih h
      simp only [schemaNodes, Prod.mk.injEq] at hs
      cases definition with
      | operation d => exact ⟨ht, he, hds, Prod.ext hs.1 hs.2⟩
      | fragment d => exact ⟨ht, he, hds, Prod.ext hs.1 hs.2⟩
      | _ => cases hd

theorem mapM_ready (sources : Sources) (existing : List NamedType) :
    (existing.map fun t => (t.name, TypeSource.ready t)).mapM
      (fun source => source.2.type sources) = .ok existing := by
  induction existing with
  | nil => rfl
  | cons t existing ih =>
      rw [List.map_cons, List.mapM_cons, ih]
      rfl

/-- Definitions that say nothing of types add nothing. -/
theorem builds_of_not_describesTypes (h : describesTypes definitions = false) :
    Builds base definitions existing added types ↔
      existing = base.types ∧ added = [] ∧ types = base.types := by
  obtain ⟨ht, he, hd, hs⟩ := parts_of_not_describesTypes h
  have hexisting : base.types.mapM (extendExisting (typeExtensions definitions)) = .ok base.types :=
    mapM_eq_self fun t _ => by rw [he, extendExisting_nil]
  have htypes (existing : List NamedType) : (sourcesOf existing definitions).mapM
      (fun source => source.2.type (sourcesOf existing definitions)) = .ok existing := by
    rw [sourcesOf_eq, ht, putAll, List.foldl_nil]
    exact mapM_ready _ existing
  constructor
  · intro hb
    have h1 := hb.extended
    have h2 := hb.directives
    have h3 := hb.types
    rw [hexisting] at h1
    cases h1
    rw [hd] at h2
    cases h2
    rw [htypes] at h3
    cases h3
    exact ⟨rfl, rfl, rfl⟩
  · rintro ⟨rfl, rfl, rfl⟩
    refine ⟨hexisting, by simp [ht], by simp [bindings, hs], by rw [hd]; rfl, htypes _⟩

/-- A schema that definitions were added to, if they say anything of types. -/
def Schema.withDefinitions (base : Schema) (definitions : List Definition) (unchecked : Bool)
    (added : List DirectiveType) : Schema :=
  if describesTypes definitions then base.grown definitions unchecked added else base

theorem extendWith_ok_iff (ha : (adjust base).types = base.types) :
    extendWith base definitions unchecked adjust = .ok schema ↔
    ∃ existing added types, Builds base definitions existing added types
      ∧ schema = (adjust (base.withDefinitions definitions unchecked added)).arrange types := by
  unfold Schema.withDefinitions
  cases hd : describesTypes definitions with
  | true => exact extendWith_eq_ok hd
  | false =>
      have he : extendWith base definitions unchecked adjust =
          .ok ((adjust base).arrange base.types) := by
        rw [extendWith, hd, ← ha]
        rfl
      rw [he]
      constructor
      · intro h
        cases h
        exact ⟨_, _, _, (builds_of_not_describesTypes hd).mpr ⟨rfl, rfl, rfl⟩, rfl⟩
      · rintro ⟨existing, added, types, hb, rfl⟩
        obtain ⟨-, -, rfl⟩ := (builds_of_not_describesTypes hd).mp hb
        rfl

end Untyped

/-! ## Types of the result -/

namespace Builds

variable {base : Schema} {definitions : List Definition} {existing types : List NamedType}
  {added : List DirectiveType} {name : String} {t : NamedType}

theorem type_name {sources : Sources} {source : TypeSource} (h : source.type sources = .ok t) :
    t.name = source.name := by
  cases source with
  | ready t' =>
      cases h
      rfl
  | written node extensions =>
      obtain ⟨shape, -, h⟩ := bind_eq_ok h
      cases h
      rfl

/-- Extensions leave the names of types, and the standard types as they are. -/
theorem grounded (h : Builds base definitions existing added types) (hg : Grounded base.types) :
    Grounded existing := by
  constructor
  · rw [mapM_map (fun t t' ht => (extendExisting_eq_ok ht).1) h.extended]
    exact hg.nodup
  · intro t' ht' hs
    obtain ⟨t, ht, he⟩ := mapM_eq_ok h.extended t' ht'
    obtain ⟨hn, hk, -⟩ := extendExisting_eq_ok he
    rw [hn] at hs
    rw [hk hs]
    exact hg.standard t ht hs

theorem map_name (h : Builds base definitions existing added types) :
    types.map NamedType.name = (sourcesOf existing definitions).map Prod.fst := by
  have hnames : types.map NamedType.name =
      (sourcesOf existing definitions).map fun source => source.2.name :=
    mapM_map (fun source t ht => type_name ht) h.types
  rw [hnames]
  exact List.map_congr_left name_of_mem_sourcesOf

/-- The types of the result stand under the keys of their sources. -/
theorem mem_types (h : Builds base definitions existing added types) : t ∈ types ↔
    ∃ source, (t.name, source) ∈ sourcesOf existing definitions
      ∧ source.type (sourcesOf existing definitions) = .ok t := by
  constructor
  · intro ht
    obtain ⟨⟨key, source⟩, hm, hs⟩ := mapM_eq_ok h.types t ht
    have hk : source.name = key := name_of_mem_sourcesOf _ hm
    rw [← hk, ← type_name hs] at hm
    exact ⟨source, hm, hs⟩
  · rintro ⟨source, hm, hs⟩
    obtain ⟨t', ht', hs'⟩ := ok_of_mapM h.types _ hm
    cases hs.symm.trans hs'
    exact ht'

theorem nodup (h : Builds base definitions existing added types) (hg : Grounded base.types) :
    (types.map NamedType.name).Nodup :=
  h.map_name ▸ nodup_sourcesOf _ (h.grounded hg).nodup

/-- A name stands for the type that its source gives. -/
theorem target?_eq_some (h : Builds base definitions existing added types)
    (hg : Grounded base.types) : target? types name = some t ↔
      ∃ source, (sourcesOf existing definitions).find? name = some source
        ∧ source.type (sourcesOf existing definitions) = .ok t := by
  have hkeys := nodup_sourcesOf definitions (h.grounded hg).nodup
  cases hs : standardType? name with
  | none =>
      have hplain : isStandardType name = false := by
        rw [← standardType?_isSome, hs]
        rfl
      rw [target?, hs, Option.or_none, find?_eq_some_iff (h.nodup hg), h.mem_types,
        find?_eq_lookup hplain]
      constructor
      · rintro ⟨⟨source, hm, ht⟩, rfl⟩
        exact ⟨source, (mem_iff_lookup hkeys).mp hm, ht⟩
      · rintro ⟨source, hm, ht⟩
        have hm := (mem_iff_lookup hkeys).mpr hm
        obtain rfl : t.name = name := (type_name ht).trans (name_of_mem_sourcesOf _ hm)
        exact ⟨⟨source, hm, ht⟩, rfl⟩
  | some standard =>
      have hready : target? types name = some standard := by
        cases hf : types.find? fun t => t.name == name with
        | none => rw [target?, hf, hs, Option.none_or]
        | some found =>
            rw [target?, hf, Option.some_or]
            obtain ⟨hm, rfl⟩ := (find?_eq_some_iff (h.nodup hg)).mp hf
            obtain ⟨source, hm, ht⟩ := h.mem_types.mp hm
            obtain rfl : source = .ready standard :=
              standard_of_mem_sourcesOf (h.grounded hg) _ hm standard hs
            cases ht
            rfl
      rw [hready, find?_of_standard hs]
      constructor
      · intro ht
        cases ht
        exact ⟨_, rfl, rfl⟩
      · rintro ⟨source, hsource, ht⟩
        cases hsource
        cases ht
        rfl

/-- Every source gives a type. -/
theorem exists_type (h : Builds base definitions existing added types) {source : TypeSource}
    (hf : (sourcesOf existing definitions).find? name = some source) :
    ∃ t, source.type (sourcesOf existing definitions) = .ok t := by
  cases hs : standardType? name with
  | some t =>
      rw [find?_of_standard hs] at hf
      cases hf
      exact ⟨t, rfl⟩
  | none =>
      rw [Sources.find?, hs] at hf
      obtain ⟨t, -, ht⟩ := ok_of_mapM h.types _ (mem_of_lookup hf)
      exact ⟨t, ht⟩

/-- All sources give types if those of names that are not standard do. -/
theorem exists_types (hg : Grounded existing)
    (h : ∀ name source, isStandardType name = false →
      (sourcesOf existing definitions).find? name = some source →
      ∃ t, source.type (sourcesOf existing definitions) = .ok t) :
    ∃ types, (sourcesOf existing definitions).mapM
      (fun source => source.2.type (sourcesOf existing definitions)) = .ok types := by
  refine exists_mapM fun pair hm => ?_
  obtain ⟨name, source⟩ := pair
  cases hs : standardType? name with
  | some t =>
      obtain rfl : source = .ready t := standard_of_mem_sourcesOf hg _ hm t hs
      exact ⟨t, rfl⟩
  | none =>
      have hplain : isStandardType name = false := by
        rw [← standardType?_isSome, hs]
        rfl
      refine h name source hplain ?_
      rw [find?_eq_lookup hplain]
      exact (mem_iff_lookup (nodup_sourcesOf definitions hg.nodup)).mp hm

/-- A name stands for nothing where it has no source. -/
theorem target?_eq_none (h : Builds base definitions existing added types)
    (hg : Grounded base.types) (hf : (sourcesOf existing definitions).find? name = none) :
    target? types name = none := by
  refine Option.eq_none_iff_forall_ne_some.mpr fun t ht => ?_
  obtain ⟨source, hs, -⟩ := (h.target?_eq_some hg).mp ht
  rw [hf] at hs
  cases hs

theorem target?_of_find? (h : Builds base definitions existing added types)
    (hg : Grounded base.types) {source : TypeSource}
    (hf : (sourcesOf existing definitions).find? name = some source) :
    ∃ t, source.type (sourcesOf existing definitions) = .ok t ∧ target? types name = some t := by
  obtain ⟨t, ht⟩ := h.exists_type hf
  exact ⟨t, ht, (h.target?_eq_some hg).mpr ⟨source, hf, ht⟩⟩

theorem grounded_types (h : Builds base definitions existing added types)
    (hg : Grounded base.types) : Grounded types := by
  refine ⟨h.nodup hg, fun t ht hs => ?_⟩
  rw [← standardType?_isSome] at hs
  obtain ⟨standard, hstandard⟩ := Option.isSome_iff_exists.mp hs
  obtain ⟨source, hf, hsource⟩ := (h.target?_eq_some hg).mp (target?_of_mem (h.nodup hg) ht)
  rw [find?_of_standard hstandard] at hf
  cases hf
  cases hsource
  exact hstandard

end Builds

/-- What a shape was read from. -/
theorem shapeOf_eq_ok {sources : Sources} {node : TypeNode} {extensions : List TypeNode}
    {shape : TypeShape} (h : shapeOf sources node extensions = .ok shape) :
    match shape with
    | .scalar url => node.body = .scalar ∧ readSpecifiedBy node.directives = .ok url
    | .object interfaces fields => (∃ declared definitions, node.body = .object declared definitions)
        ∧ interfacesFrom sources node.name (node :: extensions) = .ok interfaces
        ∧ outputFields sources (node :: extensions) = .ok fields
    | .interface interfaces fields =>
      (∃ declared definitions, node.body = .interface declared definitions)
        ∧ interfacesFrom sources node.name (node :: extensions) = .ok interfaces
        ∧ outputFields sources (node :: extensions) = .ok fields
    | .union members => (∃ declared, node.body = .union declared)
        ∧ membersFrom sources node.name (node :: extensions) = .ok members
    | .enum values => (∃ definitions, node.body = .enum definitions)
        ∧ enumValues (node :: extensions) = .ok values
    | .inputObject fields oneOf => (∃ definitions, node.body = .inputObject definitions)
        ∧ oneOf = isOneOf node
        ∧ inputFields sources sources.shape (node :: extensions) = .ok fields := by
  unfold shapeOf at h
  split at h
  · rename_i hb
    obtain ⟨url, hu, h⟩ := bind_eq_ok h
    cases h
    exact ⟨hb, hu⟩
  · rename_i hb
    obtain ⟨interfaces, hi, h⟩ := bind_eq_ok h
    obtain ⟨fields, hf, h⟩ := bind_eq_ok h
    cases h
    exact ⟨⟨_, _, hb⟩, hi, mapError_eq_ok hf⟩
  · rename_i hb
    obtain ⟨interfaces, hi, h⟩ := bind_eq_ok h
    obtain ⟨fields, hf, h⟩ := bind_eq_ok h
    cases h
    exact ⟨⟨_, _, hb⟩, hi, mapError_eq_ok hf⟩
  · rename_i hb
    obtain ⟨members, hm, h⟩ := bind_eq_ok h
    cases h
    exact ⟨⟨_, hb⟩, hm⟩
  · rename_i hb
    obtain ⟨values, hv, h⟩ := bind_eq_ok h
    cases h
    exact ⟨⟨_, hb⟩, hv⟩
  · rename_i hb
    obtain ⟨fields, hf, h⟩ := bind_eq_ok h
    cases h
    exact ⟨⟨_, hb⟩, rfl, mapError_eq_ok hf⟩

/-- The shape of a type that is no scalar. -/
theorem shapeOf_ne_scalar {sources : Sources} {node : TypeNode} {extensions : List TypeNode}
    {shape : TypeShape} (hb : node.body ≠ .scalar)
    (h : shapeOf sources node extensions = .ok shape) (url : Option String) :
    shape ≠ .scalar url := by
  rintro rfl
  exact hb (shapeOf_eq_ok h).1

end SdlAssembly.Schemas
