import SdlAssembly.Proofs.StandIns

/-!
# What placeholders lose

The schema of a model of definitions has the types of the schema of the definitions alone, but that
a scalar loses the address of its specification. Nothing else that is printed of a type changes.
-/

namespace SdlAssembly.Schemas

open Grammar Except

/-! ## Schemas and their parts -/

section Documents

variable {definitions : List Definition} {unchecked : Bool} {schema : Schema}

theorem ofDocument_eq_ok {name : Option String} :
    ofDocument ⟨definitions, name⟩ unchecked = .ok schema ↔
      (unchecked = false → Rules.violations {} definitions = [])
        ∧ ofDefinitions definitions unchecked = .ok schema := by
  unfold ofDocument
  cases unchecked with
  | true =>
      constructor
      · exact fun h => ⟨fun he => (nomatch he), mapError_eq_ok h⟩
      · rintro ⟨-, h⟩
        rw [h]
        rfl
  | false =>
      cases hv : Rules.violations {} definitions with
      | nil =>
          constructor
          · exact fun h => ⟨fun _ => rfl, mapError_eq_ok h⟩
          · rintro ⟨-, h⟩
            rw [h]
            rfl
      | cons violation violations =>
          constructor
          · exact fun h => (nomatch h)
          · exact fun h => (nomatch h.1 rfl)

theorem adoptRoots_types (operations : List OperationKind) (schema : Schema) :
    (schema.adoptRoots operations).types = schema.types := by
  unfold Schema.adoptRoots
  induction operations generalizing schema with
  | nil => rfl
  | cons operation operations ih =>
      rw [List.foldl_cons, ih]
      cases operation <;> rfl

theorem complete_types (names : List String) (schema : Schema) :
    (Schema.complete names schema).types = schema.types := by
  unfold Schema.complete
  split
  · rfl
  · exact adoptRoots_types _ schema

/-- The names that the definitions of types take. -/
def definedNames (definitions : List Definition) : List String :=
  (typeDefinitions definitions).map TypeNode.name

theorem ofDefinitions_eq_ok : ofDefinitions definitions unchecked = .ok schema ↔
    ∃ added types, Builds .bare definitions [] added types
      ∧ schema = (Schema.complete (definedNames definitions)
          (Schema.bare.withDefinitions definitions unchecked added)).arrange types := by
  have he : ofDefinitions definitions unchecked =
      extendWith .bare definitions unchecked (Schema.complete (definedNames definitions)) := by
    rw [definedNames, typeDefinitions, List.map_filterMap]
    refine congrArg (fun name? => extendWith .bare definitions unchecked
      (Schema.complete (definitions.filterMap name?))) (funext fun d => ?_)
    cases d <;> rfl
  rw [he, extendWith_ok_iff (complete_types _ _)]
  constructor
  · rintro ⟨existing, added, types, hb, hs⟩
    cases hb.extended
    exact ⟨added, types, hb, hs⟩
  · rintro ⟨added, types, hb, hs⟩
    exact ⟨[], added, types, hb, hs⟩

/-- Definitions without extensions leave the types that are there. -/
theorem extend_eq_ok {base : Schema} (hx : typeExtensions definitions = []) :
    base.extend definitions unchecked = .ok schema ↔
      ∃ added types, Builds base definitions base.types added types
        ∧ schema = (base.withDefinitions definitions unchecked added).arrange types := by
  rw [Schema.extend, extendWith_ok_iff rfl]
  have hself : base.types.mapM (extendExisting (typeExtensions definitions)) = .ok base.types :=
    mapM_eq_self fun t _ => by rw [hx, extendExisting_nil]
  constructor
  · rintro ⟨existing, added, types, hb, hs⟩
    cases hself.symm.trans hb.extended
    exact ⟨added, types, hb, hs⟩
  · rintro ⟨added, types, hb, hs⟩
    exact ⟨base.types, added, types, hb, hs⟩

end Documents

end SdlAssembly.Schemas

namespace SdlAssembly.Model

open Grammar Documents Schemas Except

section Building

variable {model : TypeSystem} {definitions : List Definition} {strict : Bool} {schema : Schema}

theorem assignRoots_value (schema : Schema) : (assignRoots schema).value = schema.withDefaultRoots := by
  unfold assignRoots
  cases h : schema.missingRoots with
  | nil => rw [Schema.withDefaultRoots, h]
  | cons operation operations => rfl

theorem reported_eq_ok {schema' : Schema} : (reported schema).value = .ok schema' ↔
    schema' = schema ∧ ∃ text, printSchema schema = .ok text := by
  unfold reported
  rw [Logged.value_andThen]
  cases hp : printSchema schema with
  | ok text => simp [eq_comm (a := schema)]
  | error cause => simp

theorem checked_eq_ok {schema' : Schema} : model.checked schema = .ok schema' ↔
    schema' = schema ∧ (model.strict → schema.violations = []) := by
  unfold TypeSystem.checked
  cases model.strict with
  | true =>
      cases schema.violations with
      | nil => simp [eq_comm (a := schema)]
      | cons violation violations => simp
  | false => simp [eq_comm (a := schema)]

/-- Building succeeds where the definitions can be added, the result is valid and it can be
printed. -/
theorem build_eq_ok : model.build.value = .ok schema ↔
    ∃ extended, model.extended = .ok extended ∧ schema = extended.withDefaultRoots
      ∧ (model.strict → schema.violations = []) ∧ ∃ text, printSchema schema = .ok text := by
  unfold TypeSystem.build
  cases model.extended with
  | error failure => simp
  | ok extended =>
      simp only [Logged.value_andThen, assignRoots_value, Except.ok.injEq, exists_eq_left']
      cases hc : model.checked extended.withDefaultRoots with
      | error failure =>
          simp only [reduceCtorEq, false_iff]
          rintro ⟨rfl, hv, -⟩
          rw [checked_eq_ok.mpr ⟨rfl, hv⟩] at hc
          cases hc
      | ok checked =>
          obtain ⟨rfl, hv⟩ := checked_eq_ok.mp hc
          dsimp only
          rw [reported_eq_ok]
          constructor
          · rintro ⟨rfl, hp⟩
            exact ⟨rfl, hv, hp⟩
          · rintro ⟨rfl, -, hp⟩
            exact ⟨rfl, hp⟩

theorem extended_eq_ok : model.extended = .ok schema ↔
    (model.strict → Rules.violations (.ofSchema model.foundation) model.retained = [])
      ∧ model.foundation.extend model.retained (!model.strict) = .ok schema := by
  unfold TypeSystem.extended
  dsimp only
  cases model.strict with
  | false =>
      constructor
      · exact fun h => ⟨fun he => (nomatch he), mapError_eq_ok h⟩
      · rintro ⟨-, h⟩
        exact congrArg (Except.mapError BuildFailure.unbuildable) h
  | true =>
      cases hv : Rules.violations (.ofSchema model.foundation) model.retained with
      | nil =>
          constructor
          · exact fun h => ⟨fun _ => rfl, mapError_eq_ok h⟩
          · rintro ⟨-, h⟩
            exact congrArg (Except.mapError BuildFailure.unbuildable) h
      | cons violation violations =>
          constructor
          · exact fun h => (nomatch h)
          · exact fun h => (nomatch h.1 rfl)

theorem TypeSystem.Defines.foundation (h : model.Defines definitions strict)
    (hd : DefinesOnce definitions) :
    model.foundation = Schema.ofTypes (placeholderTypes definitions) := by
  have hvalues : model.placeholders.values = model.placeholders.toList.map Prod.snd := rfl
  rw [TypeSystem.foundation, hvalues, h.toList_placeholders hd, List.map_map, List.map_map]
  rfl

end Building

/-! ## What names stand for -/

section Meaning

variable {definitions : List Definition} {added added' : List DirectiveType}
  {types types' : List NamedType} {name : String}

theorem type_replacement {node : TypeNode} {sources sources' : Sources} {t t' : NamedType}
    (hw : sources.Within sources')
    (h : (TypeSource.written node []).type sources = .ok t)
    (h' : (replacement node).type sources' = .ok t') : t' = t.unspecified := by
  obtain ⟨shape, hs, ht⟩ := bind_eq_ok h
  cases ht
  by_cases hb : node.body = .scalar
  · rw [replacement_scalar hb] at h'
    cases h'
    rw [shapeOf, hb] at hs
    obtain ⟨url, -, hs⟩ := bind_eq_ok hs
    cases hs
    rfl
  · rw [replacement_of_ne hb] at h'
    obtain ⟨shape', hs', ht'⟩ := bind_eq_ok h'
    cases ht'
    obtain ⟨shape'', hs'', rfl⟩ := shapeOf_follows hw node [] shape hs
    cases hs'.symm.trans hs''
    exact (unspecified_eq_self (shapeOf_ne_scalar hb hs)).symm

theorem grounded_nil : Grounded [] := ⟨by simp, by simp⟩

/-- With placeholders, a name stands for what it stands for without, but for the specification. -/
theorem target?_unspecified (h : Plain definitions)
    (ha : Builds .bare definitions [] added types)
    (hm : Builds (Schema.ofTypes (placeholderTypes definitions)) (withoutScalars definitions)
      (Schema.ofTypes (placeholderTypes definitions)).types added' types') (name : String) :
    target? types' name = (target? types name).map NamedType.unspecified := by
  have hg := h.foundation_grounded
  cases hs : standardType? name with
  | some t =>
      rw [(ha.target?_eq_some grounded_nil).mpr ⟨_, find?_of_standard hs, rfl⟩,
        (hm.target?_eq_some hg).mpr ⟨_, find?_of_standard hs, rfl⟩, Option.map_some,
        unspecified_standard (List.mem_of_find?_eq_some hs)]
  | none =>
      have hs : isStandardType name = false := by
        rw [← standardType?_isSome, hs]
        rfl
      have halone := h.find?_alone hs
      have hreplaced := h.find?_replaced hs
      cases hl : lastDefinition? definitions name with
      | none =>
          rw [hl] at halone hreplaced
          rw [ha.target?_eq_none grounded_nil halone, hm.target?_eq_none hg hreplaced]
          rfl
      | some node =>
          rw [hl] at halone hreplaced
          obtain ⟨t, ht, htarget⟩ := ha.target?_of_find? grounded_nil halone
          obtain ⟨t', ht', htarget'⟩ := hm.target?_of_find? hg hreplaced
          rw [htarget, htarget', type_replacement h.within ht ht']
          rfl

end Meaning

/-! ## Printed types -/

/-- The types that a print of a schema shows. -/
def printedTypes (schema : Schema) : List NamedType :=
  schema.types.filter fun t => !isStandardType t.name

/-- A schema is printed where its directives and types are. -/
theorem printSchema_isOk {schema : Schema} : (∃ text, printSchema schema = .ok text) ↔
    (∀ d ∈ schema.directives, isStandardDirective d.name = false →
        ∃ text, printDirectiveType schema d = .ok text)
      ∧ ∀ t ∈ printedTypes schema, ∃ text, printType schema t = .ok text := by
  constructor
  · rintro ⟨text, h⟩
    obtain ⟨directives, hd, h⟩ := bind_eq_ok h
    obtain ⟨types, ht, -⟩ := bind_eq_ok h
    constructor
    · intro d hm hs
      obtain ⟨text, -, hp⟩ := ok_of_mapM hd d (List.mem_filter.mpr ⟨hm, by simp [hs]⟩)
      exact ⟨text, hp⟩
    · intro t hm
      obtain ⟨text, -, hp⟩ := ok_of_mapM ht t hm
      exact ⟨text, hp⟩
  · rintro ⟨hd, ht⟩
    have hdirectives : ∃ directives, (schema.directives.filter fun d =>
        !isStandardDirective d.name).mapM (printDirectiveType schema) = .ok directives :=
      exists_mapM fun d hm => by
        obtain ⟨hm, hs⟩ := List.mem_filter.mp hm
        exact hd d hm (by simpa using hs)
    obtain ⟨directives, hdirectives⟩ := hdirectives
    obtain ⟨types, htypes⟩ := exists_mapM ht
    exact ⟨_, (bind_of_ok hdirectives).trans ((bind_of_ok htypes).trans rfl)⟩

section Printing

variable {schema alone : Schema} {meaning : String → Option NamedType}

/-- Schemas with the same types, but for specifications, print them alike. -/
theorem printedTypes_perm (ha : alone.Lists meaning)
    (hs : schema.Lists fun name => (meaning name).map NamedType.unspecified) :
    ((printedTypes schema).map fun t => (t, printType schema t)).Perm
      ((printedTypes alone).map fun t => (t.unspecified, printType alone t.unspecified)) := by
  have hnames : (printedTypes schema).Nodup :=
    List.Pairwise.of_map (S := (· ≠ ·)) NamedType.name (fun _ _ hne he => hne (congrArg _ he))
      (hs.nodup.sublist (List.filter_sublist.map _))
  have hnames' : ((printedTypes alone).map NamedType.unspecified).Nodup := by
    refine List.Pairwise.of_map (S := (· ≠ ·)) NamedType.name
      (fun _ _ hne he => hne (congrArg _ he)) ?_
    rw [List.map_map, funext (f := NamedType.name ∘ NamedType.unspecified) fun t => unspecified_name]
    exact ha.nodup.sublist (List.filter_sublist.map _)
  have hperm : (printedTypes schema).Perm ((printedTypes alone).map NamedType.unspecified) := by
    refine (List.perm_ext_iff_of_nodup hnames hnames').mpr fun t => ?_
    simp only [printedTypes, List.mem_map, List.mem_filter, Bool.not_eq_true']
    constructor
    · rintro ⟨ht, hn⟩
      have hm := hs.sound t ht
      obtain ⟨t', ht', rfl⟩ := Option.map_eq_some_iff.mp hm
      rw [unspecified_name] at ht' hn
      exact ⟨t', ⟨ha.complete _ t' hn ht', hn⟩, rfl⟩
    · rintro ⟨t', ⟨ht', hn⟩, rfl⟩
      rw [unspecified_name]
      refine ⟨hs.complete t'.name _ hn ?_, hn⟩
      rw [ha.sound t' ht', Option.map_some]
  refine (hperm.map _).trans (.of_eq ?_)
  rw [List.map_map]
  refine List.map_congr_left fun t ht => ?_
  have hmem : t.unspecified ∈ printedTypes schema := hperm.mem_iff.mpr (List.mem_map_of_mem ht)
  have hprint := printType_alike (t := t.unspecified) (alikeOn_lists ha hs).writesAlikeOn fun name hn =>
    ⟨ha.closed t (List.mem_filter.mp ht).1 name (leadsTo_unspecified t ▸ hn),
      hs.closed _ (List.mem_filter.mp hmem).1 name hn⟩
  rw [Function.comp_apply, hprint]

/-- A type is printed with its specification where it is printed without. -/
theorem printType_unspecified_isOk (schema : Schema) (t : NamedType) :
    (∃ text, printType schema t.unspecified = .ok text) ↔
      ∃ text, printType schema t = .ok text := by
  by_cases h : ∃ url, t.shape = .scalar url
  · obtain ⟨url, hs⟩ := h
    have hn : t.unspecified.shape = .scalar none := by rw [NamedType.unspecified, hs]
    constructor
    · rintro -
      exact ⟨_, by rw [printType, hs]; rfl⟩
    · rintro -
      exact ⟨_, by rw [printType, hn]; rfl⟩
  · rw [unspecified_eq_self fun url hs => h ⟨url, hs⟩]

/-- Schemas with the same types and directives, but for specifications, are printed together. -/
theorem printSchema_both (ha : alone.Lists meaning)
    (hs : schema.Lists fun name => (meaning name).map NamedType.unspecified)
    (hd : ∀ d, d ∈ schema.directives ↔ d ∈ alone.directives) :
    (∃ text, printSchema schema = .ok text) ↔ ∃ text, printSchema alone = .ok text := by
  have hdirective : ∀ d ∈ alone.directives,
      printDirectiveType schema d = printDirectiveType alone d := fun d hm =>
    (printDirectiveType_alike (alikeOn_lists ha hs).writesAlikeOn fun a hm' =>
      ⟨ha.directives d hm a hm', hs.directives d ((hd d).mpr hm) a hm'⟩).symm
  have hperm := printedTypes_perm ha hs
  have htypes : (∀ t ∈ printedTypes schema, ∃ text, printType schema t = .ok text) ↔
      ∀ t ∈ printedTypes alone, ∃ text, printType alone t = .ok text := by
    constructor
    · intro h t ht
      obtain ⟨t', ht', he⟩ := List.mem_map.mp (hperm.mem_iff.mpr (List.mem_map_of_mem ht))
      obtain ⟨-, hp⟩ := Prod.mk.injEq .. ▸ he
      rw [← printType_unspecified_isOk, ← hp]
      exact h t' ht'
    · intro h t ht
      obtain ⟨t', ht', he⟩ := List.mem_map.mp (hperm.mem_iff.mp (List.mem_map_of_mem ht))
      obtain ⟨-, hp⟩ := Prod.mk.injEq .. ▸ he
      rw [← hp, printType_unspecified_isOk]
      exact h t' ht'
  rw [printSchema_isOk, printSchema_isOk, htypes]
  refine and_congr_left fun _ => forall_congr' fun d => ?_
  rw [hd]
  refine forall_congr' fun hm => ?_
  rw [hdirective d hm]

end Printing

/-! ## The schema of a model and of its definitions -/

theorem plain_definitionsOf {documents : List NamedDocument} {strict : Bool} {model : TypeSystem}
    (hdocs : ∀ d ∈ documents, ¬annotates d) (honce : DefinesOnce (definitionsOf documents))
    (hm : model.Defines (definitionsOf documents) strict) : Plain (definitionsOf documents) :=
  { honce, unextended_definitionsOf hdocs with notReserved := hm.notReserved }

/-- The schema of a model lists what its placeholders and the other definitions give. -/
theorem build_lists {model : TypeSystem} {schema : Schema}
    (hx : typeExtensions model.retained = []) (hg : Grounded model.foundation.types)
    (hs : model.build.value = .ok schema) : ∃ added types,
      Builds model.foundation model.retained model.foundation.types added types
        ∧ schema.Lists (target? types) ∧ KeepsStandard (target? types) := by
  obtain ⟨extended, he, rfl, -, -⟩ := build_eq_ok.mp hs
  obtain ⟨-, he⟩ := extended_eq_ok.mp he
  obtain ⟨added, types, hb, rfl⟩ := (extend_eq_ok hx).mp he
  have hlists := arrange_lists
    (model.foundation.withDefinitions model.retained (!model.strict) added) (hb.nodup hg)
  exact ⟨added, types, hb, hlists.withDefaultRoots (hb.grounded_types hg),
    keepsStandard_target? (hb.grounded_types hg)⟩

/-- The schema of a model of definitions is made from its placeholders and the other
definitions. -/
theorem build_parts {model : TypeSystem} {definitions : List Definition} {strict : Bool}
    {schema : Schema} (h : Plain definitions) (hm : model.Defines definitions strict)
    (hs : model.build.value = .ok schema) :
    ∃ added types, Builds (Schema.ofTypes (placeholderTypes definitions))
        (withoutScalars definitions) (Schema.ofTypes (placeholderTypes definitions)).types added
        types ∧ schema.Lists (target? types) := by
  have hf := hm.foundation h.toDefinesOnce
  obtain ⟨added, types, hb, hlists, -⟩ := build_lists
    (hm.retained ▸ h.typeExtensions_withoutScalars) (hf ▸ h.foundation_grounded) hs
  rw [hf, hm.retained] at hb
  exact ⟨added, types, hb, hlists⟩

/-- Models of definitions print the types of the definitions, without the specifications of
scalars. -/
theorem build_printedTypes {documents : List NamedDocument} {strict unchecked : Bool}
    {model : TypeSystem} {schema alone : Schema} (hdocs : ∀ d ∈ documents, ¬annotates d)
    (honce : DefinesOnce (definitionsOf documents))
    (hm : (assemble (some documents) strict).value = .ok model)
    (hs : model.build.value = .ok schema)
    (ha : ofDocument ⟨definitionsOf documents, none⟩ unchecked = .ok alone) :
    ((printedTypes schema).map fun t => (t, printType schema t)).Perm
      ((printedTypes alone).map fun t => (t.unspecified, printType alone t.unspecified)) := by
  have hdefines := assemble_definitions hdocs hm
  have h := plain_definitionsOf hdocs honce hdefines
  obtain ⟨added', types', hb', hlists'⟩ := build_parts h hdefines hs
  obtain ⟨added, types, hb, rfl⟩ := ofDefinitions_eq_ok.mp (ofDocument_eq_ok.mp ha).2
  have hlists := arrange_lists (Schema.complete (definedNames (definitionsOf documents))
    (Schema.bare.withDefinitions (definitionsOf documents) unchecked added)) (hb.nodup grounded_nil)
  have hmeaning : target? types' = fun name => (target? types name).map NamedType.unspecified :=
    funext fun name => target?_unspecified h hb hb' name
  exact printedTypes_perm hlists (hmeaning ▸ hlists')

/-- A described scalar with a specification, and a field that takes it. -/
def specified : List NamedDocument :=
  [⟨⟨[.type ⟨some ⟨"An amount", false⟩, "Money",
        [⟨"specifiedBy", [⟨"url", .string "x" false, none⟩], none⟩], .scalar⟩], none⟩, none⟩,
    ⟨⟨[.type ⟨none, "Query", [], .object []
        [⟨none, "price", [⟨none, "at", .named "Money", some (.int "1"), []⟩], .named "Money", []⟩]⟩],
      none⟩, none⟩]

theorem definesOnce_specified : DefinesOnce (definitionsOf specified) := ⟨by decide, by decide⟩

/-- What is told of the schema of a model and of the schema of its definitions. -/
def bothPrint (documents : List NamedDocument) (test : List String → List String → Bool) : Bool :=
  match (assemble (some documents) true).value with
  | .error _ => false
  | .ok model =>
    match model.build.value, ofDocument ⟨definitionsOf documents, none⟩ false with
    | .ok schema, .ok alone =>
      test ((printedTypes schema).filterMap fun t => (printType schema t).toOption)
        ((printedTypes alone).filterMap fun t => (printType alone t).toOption)
    | _, _ => false

theorem exists_of_bothPrint {documents : List NamedDocument}
    {test : List String → List String → Bool} (h : bothPrint documents test) :
    ∃ model schema alone, (assemble (some documents) true).value = .ok model
      ∧ model.build.value = .ok schema
      ∧ ofDocument ⟨definitionsOf documents, none⟩ false = .ok alone
      ∧ test ((printedTypes schema).filterMap fun t => (printType schema t).toOption)
        ((printedTypes alone).filterMap fun t => (printType alone t).toOption) := by
  unfold bothPrint at h
  split at h
  · cases h
  · split at h
    · exact ⟨_, _, _, by assumption, by assumption, by assumption, h⟩
    · cases h

theorem bothPrint_specified :
    bothPrint specified fun model alone => !decide (model.Perm alone) := by
  decide +kernel

theorem build_printedTypes_specified :
    ∃ model schema alone, (assemble (some specified) true).value = .ok model
      ∧ model.build.value = .ok schema
      ∧ ofDocument ⟨definitionsOf specified, none⟩ false = .ok alone
      ∧ ((printedTypes schema).map fun t => (t, printType schema t)).Perm
        ((printedTypes alone).map fun t => (t.unspecified, printType alone t.unspecified)) := by
  obtain ⟨model, schema, alone, hm, hs, ha, -⟩ := exists_of_bothPrint bothPrint_specified
  exact ⟨model, schema, alone, hm, hs, ha,
    build_printedTypes (by decide) definesOnce_specified hm hs ha⟩

/-- The address of the specification of a scalar is printed of the definitions alone only. -/
theorem printedTypes_specified_differ :
    ∃ model schema alone, (∀ d ∈ specified, ¬annotates d)
      ∧ DefinesOnce (definitionsOf specified)
      ∧ (assemble (some specified) true).value = .ok model
      ∧ model.build.value = .ok schema
      ∧ ofDocument ⟨definitionsOf specified, none⟩ false = .ok alone
      ∧ ¬((printedTypes schema).map (printType schema)).Perm
        ((printedTypes alone).map (printType alone)) := by
  obtain ⟨model, schema, alone, hm, hs, ha, ht⟩ := exists_of_bothPrint bothPrint_specified
  refine ⟨model, schema, alone, by decide, definesOnce_specified, hm, hs, ha, fun hp => ?_⟩
  have hp := hp.filterMap Except.toOption
  rw [List.filterMap_map, List.filterMap_map] at hp
  rw [Bool.not_eq_true', decide_eq_false_iff_not] at ht
  exact ht hp

end SdlAssembly.Model
