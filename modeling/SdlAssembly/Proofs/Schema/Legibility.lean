import SdlAssembly.Proofs.Schema.Denoting
import SdlAssembly.Proofs.Schema.Rooting

/-!
# Built schemas are legible

Definitions whose names and literals can be written make schemas that can be written: names are kept
as they are and lead to types of the kinds that they must lead to, and every default was read from a
literal.
-/

namespace SdlAssembly.Schemas

open Grammar Lexer Except

/-! ## Types that sources give -/

section Types

variable {sources : Sources} {type? : String → Option NamedType} {nodes : List TypeNode}

theorem legible_enumValues {values : List EnumValue} (hp : ∀ node ∈ nodes, node.Proper)
    (h : enumValues nodes = .ok values) :
    (values.map EnumValue.name).Nodup ∧ ∀ value ∈ values, value.Legible := by
  obtain ⟨all, ha, h⟩ := bind_eq_ok h
  cases h
  refine ⟨nodup_lastOfEach _ _, fun value hv => ?_⟩
  obtain ⟨those, hthose, hv⟩ := List.mem_flatten.mp (mem_of_mem_lastOfEach hv)
  obtain ⟨node, hn, hnode⟩ := mapM_eq_ok ha those hthose
  obtain ⟨definitions, hd, hnode⟩ := bind_eq_ok hnode
  obtain ⟨d, hm, hvalue⟩ := mapM_eq_ok hnode value hv
  obtain ⟨deprecation, -, hvalue⟩ := bind_eq_ok hvalue
  cases hvalue
  have hbody := (hp node hn).body
  unfold valuesOf at hd
  split at hd
  · rename_i hb
    cases hd
    rw [hb] at hbody
    exact (hbody d hm).name
  · cases hd

variable (hp : sources.Proper) (hd : Denotes sources type?)
include hp hd

theorem legible_inputField {wrongType : BuildFault} {d : InputDefinition} {field : InputField}
    (hn : d.Proper) (hf : inputField sources sources.shape wrongType d = .ok field) :
    field.Legible type? := by
  obtain ⟨hname, htype, htest, hdefault⟩ := inputField_eq_ok hf
  refine ⟨hname ▸ hn.name, htype ▸ hn.type, ?_, ?_⟩
  · rw [htype]
    exact hd.leads (fun source t ht => (tests_of_type ht).1) htest
  · rw [htype]
    exact fun c hc => (fits_readDefault (readsTypes_inputShape hp hd _) hn hdefault c hc).mono
      fun _ _ => trivial

theorem legible_inputFields {fields : List InputField} (hn : ∀ node ∈ nodes, node.Proper)
    (h : inputFields sources sources.shape nodes = .ok fields) :
    (fields.map InputField.name).Nodup ∧ ∀ field ∈ fields, field.Legible type? := by
  obtain ⟨hnodup, hread⟩ := lastOfEach_mapM h
  refine ⟨hnodup, fun field hf => ?_⟩
  obtain ⟨d, hm, hfield⟩ := hread field hf
  exact legible_inputField hp hd (proper_inputDefinitions hn d hm) hfield

theorem legible_arguments {definitions : List InputDefinition} {arguments : List InputField}
    (hn : ∀ d ∈ definitions, d.Proper) (h : argumentsFrom sources definitions = .ok arguments) :
    (arguments.map InputField.name).Nodup ∧ ∀ argument ∈ arguments, argument.Legible type? := by
  obtain ⟨hnodup, hread⟩ := lastOfEach_mapM h
  refine ⟨hnodup, fun argument ha => ?_⟩
  obtain ⟨d, hm, hfield⟩ := hread argument ha
  exact legible_inputField hp hd (hn d hm) hfield

theorem legible_outputField {d : FieldDefinition} {field : Field} (hn : d.Proper)
    (h : outputField sources d = .ok field) : field.Legible type? := by
  obtain ⟨-, -, h⟩ := bind_eq_ok h
  obtain ⟨arguments, ha, h⟩ := bind_eq_ok h
  obtain ⟨deprecation, -, h⟩ := bind_eq_ok h
  split at h
  · rename_i htest
    cases h
    obtain ⟨hnodup, harguments⟩ := legible_arguments hp hd hn.arguments ha
    exact ⟨hn.name, harguments, hnodup, hn.type,
      hd.leads (fun source t ht => (tests_of_type ht).2.1) htest⟩
  · cases h

theorem legible_outputFields {fields : List Field} (hn : ∀ node ∈ nodes, node.Proper)
    (h : outputFields sources nodes = .ok fields) :
    (fields.map Field.name).Nodup ∧ ∀ field ∈ fields, field.Legible type? := by
  obtain ⟨hnodup, hread⟩ := lastOfEach_mapM h
  refine ⟨hnodup, fun field hf => ?_⟩
  obtain ⟨d, hm, hfield⟩ := hread field hf
  obtain ⟨node, hnode, hm⟩ := List.mem_flatMap.mp hm
  refine legible_outputField hp hd ?_ hfield
  have hbody := (hn node hnode).body
  unfold fieldDefinitionsOf at hm
  split at hm
  · rename_i hb
    rw [hb] at hbody
    exact hbody.2 d hm
  · rename_i hb
    rw [hb] at hbody
    exact hbody.2 d hm
  · cases hm

omit hp in
theorem legible_interfaces {name : String} {interfaces : List String}
    (hn : ∀ node ∈ nodes, node.Proper) (h : interfacesFrom sources name nodes = .ok interfaces) :
    ∀ interface ∈ interfaces, IsName interface ∧ Leads type? NamedType.isInterface interface := by
  obtain ⟨known, hk, h⟩ := bind_eq_ok h
  obtain ⟨-, rfl⟩ := knownNames_eq_ok.mp (mapError_eq_ok hk)
  split at h
  · rename_i htest
    cases h
    intro interface hi
    refine ⟨?_, hd.leads (fun source t ht => (tests_of_type ht).2.2.1)
      (List.all_eq_true.mp htest interface hi)⟩
    obtain ⟨node, hnode, hi⟩ := List.mem_flatMap.mp hi
    have hbody := (hn node hnode).body
    unfold interfacesOf at hi
    split at hi
    · rename_i hb
      rw [hb] at hbody
      exact hbody.1 interface hi
    · rename_i hb
      rw [hb] at hbody
      exact hbody.1 interface hi
    · cases hi
  · cases h

omit hp in
theorem legible_members {name : String} {members : List String}
    (hn : ∀ node ∈ nodes, node.Proper) (h : membersFrom sources name nodes = .ok members) :
    ∀ member ∈ members, IsName member ∧ Leads type? NamedType.isObject member := by
  obtain ⟨known, hk, h⟩ := bind_eq_ok h
  obtain ⟨-, rfl⟩ := knownNames_eq_ok.mp (mapError_eq_ok hk)
  split at h
  · rename_i htest
    cases h
    intro member hm
    refine ⟨?_, hd.leads (fun source t ht => (tests_of_type ht).2.2.2)
      (List.all_eq_true.mp htest member hm)⟩
    obtain ⟨node, hnode, hm⟩ := List.mem_flatMap.mp hm
    have hbody := (hn node hnode).body
    unfold membersOf at hm
    split at hm
    · rename_i hb
      rw [hb] at hbody
      exact hbody member hm
    · cases hm
  · cases h

/-- A type that is written in definitions is legible. -/
theorem legible_written {node : TypeNode} {extensions : List TypeNode} {t : NamedType}
    (hn : ∀ n ∈ node :: extensions, n.Proper)
    (h : (TypeSource.written node extensions).type sources = .ok t) : t.Legible type? := by
  obtain ⟨shape, hs, h⟩ := bind_eq_ok h
  cases h
  refine ⟨(hn node List.mem_cons_self).name, ?_⟩
  have hread := shapeOf_eq_ok hs
  cases shape with
  | scalar url => trivial
  | object interfaces fields =>
      exact ⟨legible_interfaces hd hn hread.2.1, legible_outputFields hp hd hn hread.2.2⟩
  | interface interfaces fields =>
      exact ⟨legible_interfaces hd hn hread.2.1, legible_outputFields hp hd hn hread.2.2⟩
  | union members => exact legible_members hd hn hread.2
  | enum values => exact legible_enumValues hn hread.2
  | inputObject fields oneOf => exact legible_inputFields hp hd hn hread.2.2

theorem legible_directiveType {d : DirectiveDefinition} {directive : DirectiveType}
    (hn : d.Proper) (h : directiveType sources d = .ok directive) : directive.Legible type? := by
  obtain ⟨arguments, ha, h⟩ := bind_eq_ok h
  cases h
  obtain ⟨hnodup, harguments⟩ := legible_arguments hp hd hn.arguments ha
  exact ⟨hn.name, harguments, hnodup, hn.ne_nil, hn.locations⟩

end Types

/-! ## Types that a schema lists -/

section Listed

variable {type? type?' : String → Option NamedType} {schema : Schema}

theorem Leads.congr {test : NamedType → Bool} {name : String} (h : Leads type? test name)
    (hn : type?' name = type? name) : Leads type?' test name := by
  obtain ⟨t, ht, hk⟩ := h
  exact ⟨t, hn.trans ht, hk⟩

/-- What the types that a schema lists lead to is listed. -/
theorem Schema.Lists.inputFields (h : schema.Lists type?) (name : String) (t : NamedType)
    (ht : schema.type? name = some t) :
    ∀ f ∈ t.inputFields, schema.type? f.type.core = type? f.type.core := by
  intro f hf
  refine h.closed t (List.mem_of_find?_eq_some ht) f.type.core ?_
  unfold NamedType.inputFields at hf
  unfold NamedType.leadsTo
  split at hf
  · rename_i hs
    rw [hs]
    exact List.mem_map_of_mem hf
  · cases hf

variable (hl : schema.Lists type?)
include hl

theorem InputField.Legible.listed {field : InputField} (h : field.Legible type?)
    (hn : schema.type? field.type.core = type? field.type.core) :
    field.Legible schema.type? where
  name := h.name
  type := h.type
  input := h.input.congr hn
  default := fun c hc => (h.default c hc).congr hn hl.inputFields

theorem Field.Legible.listed {field : Field} (h : field.Legible type?)
    (hn : schema.type? field.type.core = type? field.type.core)
    (ha : ∀ a ∈ field.arguments, schema.type? a.type.core = type? a.type.core) :
    field.Legible schema.type? where
  name := h.name
  arguments := fun a hm => (h.arguments a hm).listed hl (ha a hm)
  nodup := h.nodup
  type := h.type
  output := h.output.congr hn

theorem NamedType.Legible.listed {t : NamedType} (ht : t ∈ schema.types) (h : t.Legible type?) :
    t.Legible schema.type? := by
  have hclosed := hl.closed t ht
  have hfields : ∀ fields : List Field, (∀ f ∈ fields, f.Legible type?) →
      (∀ f ∈ fields, ∀ name ∈ f.type.core :: f.arguments.map fun a => a.type.core,
        name ∈ t.leadsTo) → ∀ f ∈ fields, f.Legible schema.type? := by
    intro fields hf hn f hm
    refine (hf f hm).listed hl (hclosed _ (hn f hm _ List.mem_cons_self)) fun a ha => ?_
    exact hclosed _ (hn f hm _ (List.mem_cons_of_mem _ (List.mem_map_of_mem ha)))
  refine ⟨h.name, ?_⟩
  have hshape := h.shape
  unfold NamedType.leadsTo at hclosed hfields
  cases hs : t.shape with
  | scalar url => trivial
  | object interfaces fields | interface interfaces fields =>
      rw [hs] at hshape
      simp only [hs] at hclosed hfields
      refine ⟨fun name hn => ?_, hshape.2.1, hfields fields hshape.2.2 fun f hm name hn => ?_⟩
      · obtain ⟨hname, hleads⟩ := hshape.1 name hn
        exact ⟨hname, hleads.congr (hclosed name (List.mem_append_left _ hn))⟩
      · exact List.mem_append_right _ (List.mem_flatMap.mpr ⟨f, hm, hn⟩)
  | union members =>
      rw [hs] at hshape
      simp only [hs] at hclosed
      exact fun name hn => ⟨(hshape name hn).1, (hshape name hn).2.congr (hclosed name hn)⟩
  | enum values =>
      rw [hs] at hshape
      exact hshape
  | inputObject fields oneOf =>
      rw [hs] at hshape
      simp only [hs] at hclosed
      exact ⟨hshape.1, fun f hf =>
        (hshape.2 f hf).listed hl (hclosed _ (List.mem_map_of_mem hf))⟩

theorem DirectiveType.Legible.listed {d : DirectiveType} (hd : d ∈ schema.directives)
    (h : d.Legible type?) : d.Legible schema.type? where
  name := h.name
  arguments := fun a ha => (h.arguments a ha).listed hl (hl.directives d hd a ha)
  nodup := h.nodup
  ne_nil := h.ne_nil
  locations := h.locations

theorem Ranked.listed (h : Ranked type?) : Ranked schema.type? := by
  obtain ⟨rank, hr⟩ := h
  refine ⟨rank, fun name t ht f hf c hc => ?_⟩
  obtain ⟨hm, rfl⟩ := (find?_eq_some_iff hl.nodup).mp ht
  exact (hr t.name t (hl.sound t hm) f hf c hc).congr (hl.inputFields _ t ht f hf) hl.inputFields

end Listed

/-! ## Sources of definitions -/

/-- The types that are there at first: standard types, and scalars whose names can be written. -/
structure OnlyScalars (types : List NamedType) : Prop extends Grounded types where
  scalar : ∀ t ∈ types, isStandardType t.name = false →
    IsName t.name ∧ ∃ url, t.shape = .scalar url

section Sources

variable {base : Schema} {definitions : List Definition} {existing types : List NamedType}
  {added : List DirectiveType}

theorem Builds.onlyScalars (h : Builds base definitions existing added types)
    (hb : OnlyScalars base.types) : OnlyScalars existing := by
  refine ⟨h.grounded hb.toGrounded, fun t ht hs => ?_⟩
  obtain ⟨t', ht', hextended⟩ := mapM_eq_ok h.extended t ht
  obtain ⟨hn, -, hscalar⟩ := extendExisting_eq_ok hextended
  rw [hn] at hs ⊢
  obtain ⟨hname, url, hurl⟩ := hb.scalar t' ht' hs
  exact ⟨hname, hscalar url hurl⟩

theorem proper_typeDefinitions (hp : ∀ d ∈ definitions, d.Proper) :
    ∀ node ∈ typeDefinitions definitions, node.Proper :=
  fun _ hn => hp _ (mem_typeDefinitions.mp hn)

theorem proper_typeExtensions (hp : ∀ d ∈ definitions, d.Proper) :
    ∀ node ∈ typeExtensions definitions, node.Proper := by
  intro node hn
  obtain ⟨d, hd, hn⟩ := List.mem_filterMap.mp hn
  split at hn
  · cases hn
    exact hp _ hd
  · cases hn

/-- A type that is there already is standard or a scalar. -/
theorem ready_of_find? (hb : OnlyScalars existing) {name : String} {t : NamedType}
    (hf : (sourcesOf existing definitions).find? name = some (.ready t)) :
    t ∈ standardTypes ∨ IsName t.name ∧ ∃ url, t.shape = .scalar url := by
  cases hs : standardType? name with
  | some standard =>
      rw [find?_of_standard hs] at hf
      cases hf
      exact .inl (List.mem_of_find?_eq_some hs)
  | none =>
      have hplain : isStandardType name = false := by
        rw [← standardType?_isSome, hs]
        rfl
      rw [find?_sourcesOf hplain] at hf
      rcases Option.or_eq_some_iff.mp hf with hf | ⟨-, hf⟩
      · obtain ⟨node, -, hf⟩ := Option.map_eq_some_iff.mp hf
        cases hf
      · obtain ⟨t', hf, he⟩ := Option.map_eq_some_iff.mp hf
        cases he
        obtain ⟨hm, rfl⟩ := (find?_eq_some_iff hb.nodup).mp hf
        exact .inr (hb.scalar t hm hplain)

/-- A type that is written stands in definitions. -/
theorem written_of_find? {name : String} {node : TypeNode} {extensions : List TypeNode}
    (hf : (sourcesOf existing definitions).find? name = some (.written node extensions)) :
    node ∈ typeDefinitions definitions ∧ extensions ⊆ typeExtensions definitions := by
  cases hs : standardType? name with
  | some standard =>
      rw [find?_of_standard hs] at hf
      cases hf
  | none =>
      have hplain : isStandardType name = false := by
        rw [← standardType?_isSome, hs]
        rfl
      rw [find?_sourcesOf hplain] at hf
      rcases Option.or_eq_some_iff.mp hf with hf | ⟨-, hf⟩
      · obtain ⟨node', hl, hf⟩ := Option.map_eq_some_iff.mp hf
        cases hf
        exact ⟨List.mem_reverse.mp (List.mem_of_find?_eq_some hl), fun e he => (List.mem_filter.mp he).1⟩
      · obtain ⟨t, -, hf⟩ := Option.map_eq_some_iff.mp hf
        cases hf

theorem proper_sourcesOf (hb : OnlyScalars existing) (hp : ∀ d ∈ definitions, d.Proper) :
    (sourcesOf existing definitions).Proper := by
  refine ⟨named_sourcesOf _ _, fun name node extensions hf => ?_, fun name t hf => ?_⟩
  · obtain ⟨hn, he⟩ := written_of_find? hf
    refine List.forall_mem_cons.mpr ⟨proper_typeDefinitions hp node hn, fun e hm => ?_⟩
    exact proper_typeExtensions hp e (he hm)
  · rcases ready_of_find? hb hf with hs | ⟨-, url, hurl⟩
    · exact isInputObject_standard t hs
    · simp [NamedType.isInputObject, hurl]

theorem Builds.denotes (hg : Grounded base.types)
    (h : Builds base definitions existing added types) :
    Denotes (sourcesOf existing definitions) (target? types) :=
  ⟨fun _ _ => h.target?_of_find? hg, fun _ _ => (h.target?_eq_some hg).mp⟩

/-! ## Schemas -/

theorem isName_bindings (hp : ∀ d ∈ definitions, d.Proper) :
    ∀ binding ∈ bindings definitions, IsName binding.type := by
  intro binding hb
  obtain ⟨node, hn, hb⟩ := List.mem_flatMap.mp hb
  have hproper : node.Proper := by
    rcases List.mem_append.mp hn with hn | hn
    · have hn := List.mem_of_getLast? (Option.mem_toList.mp hn)
      obtain ⟨d, hd, hn⟩ := List.mem_filterMap.mp hn
      split at hn
      · cases hn
        exact hp _ hd
      · cases hn
    · obtain ⟨d, hd, hn⟩ := List.mem_filterMap.mp hn
      split at hn
      · cases hn
        exact hp _ hd
      · cases hn
  exact hproper.roots binding hb

/-- What is bound is one of the bindings, or was bound before. -/
theorem root?_bind_mem {schema : Schema} {bindings : List RootBinding} {operation : OperationKind}
    {name : String} (h : (schema.bind bindings).root? operation = some name) :
    (∃ binding ∈ bindings, binding.type = name) ∨ schema.root? operation = some name := by
  unfold Schema.bind at h
  induction bindings generalizing schema with
  | nil => exact .inr h
  | cons binding bindings ih =>
      rcases ih h with ⟨found, hm, hn⟩ | hr
      · exact .inl ⟨found, List.mem_cons_of_mem _ hm, hn⟩
      · rw [root?_withRoot] at hr
        split at hr
        · exact .inl ⟨binding, List.mem_cons_self, Option.some.inj hr⟩
        · exact .inr hr

theorem exists_of_notObject {schema : Schema} {name : String} (h : notObject schema name = false) :
    ∃ t, schema.type? name = some t := by
  cases ht : schema.type? name with
  | some t => exact ⟨t, rfl⟩
  | none => simp [notObject, ht] at h

/-- A schema to which legible definitions were added is legible. -/
theorem legible_withDefaultRoots {unchecked : Bool} (hb : OnlyScalars base.types)
    (hd : ∀ d ∈ base.directives, isStandardDirective d.name)
    (hr : ∀ operation, base.root? operation = none)
    (hp : ∀ d ∈ definitions, d.Proper) (h : Builds base definitions existing added types) :
    ((base.withDefinitions definitions unchecked added).arrange types).withDefaultRoots.Legible := by
  have hg := hb.toGrounded
  have hsources := proper_sourcesOf (h.onlyScalars hb) hp
  have hdenotes := h.denotes hg
  obtain ⟨hdirectives, hroots, -⟩ := h.withDefinitions_frame unchecked
  have harranged := arrange_lists (base.withDefinitions definitions unchecked added) (h.nodup hg)
  have hlists := harranged.withDefaultRoots (h.grounded_types hg)
  refine ⟨fun t ht hs => ?_, fun d hm hs => ?_, fun operation name hn => ?_,
    (ranked_of_denotes hsources hdenotes).listed hlists⟩
  · refine NamedType.Legible.listed hlists ht ?_
    obtain ⟨source, hf, hsource⟩ := (h.target?_eq_some hg).mp (hlists.sound t ht)
    cases source with
    | ready t' =>
        cases hsource
        rcases ready_of_find? (h.onlyScalars hb) hf with hm | ⟨hn, url, hurl⟩
        · have hs' : isStandardType t.name := isStandardType_iff.mpr (List.mem_map_of_mem hm)
          cases hs.symm.trans hs'
        · exact ⟨hn, by rw [hurl]; trivial⟩
    | written node extensions =>
        exact legible_written hsources hdenotes (hsources.written _ node extensions hf) hsource
  · refine DirectiveType.Legible.listed hlists hm ?_
    rw [(withDefaultRoots_frame _).1] at hm
    have hm : d ∈ base.directives ++ added := hdirectives ▸ hm
    rcases List.mem_append.mp hm with hm | hm
    · cases hs.symm.trans (hd d hm)
    · obtain ⟨node, hn, hdirective⟩ := mapM_eq_ok h.directives d hm
      exact legible_directiveType hsources hdenotes
        (hp _ (mem_directiveDefinitions.mp hn)) hdirective
  · have hlisted := hlists.roots name (List.mem_filterMap.mpr ⟨operation, mem_all operation, hn⟩)
    rw [hlisted]
    rw [root?_withDefaultRoots] at hn
    split at hn
    · rename_i hmissing
      cases hn
      refine ⟨by cases operation <;> exact (by decide), ?_⟩
      obtain ⟨t, ht⟩ := exists_of_notObject hmissing.2.2
      obtain ⟨hm, hname⟩ := (find?_eq_some_iff harranged.nodup).mp ht
      rw [← hname, harranged.sound t hm]
      rfl
    · have hroot : ((base.withDefinitions definitions unchecked added).arrange types).root? operation =
          (base.bind (bindings definitions)).root? operation := by
        rw [← hroots]
        cases operation <;> rfl
      rw [hroot] at hn
      rcases root?_bind_mem hn with ⟨binding, hm, rfl⟩ | hn
      · obtain ⟨source, hf⟩ := Option.isSome_iff_exists.mp (h.roots binding hm)
        obtain ⟨t, -, ht⟩ := hdenotes.total _ _ hf
        exact ⟨isName_bindings hp binding hm, by rw [ht]; rfl⟩
      · rw [hr operation] at hn
        cases hn

end Sources

end SdlAssembly.Schemas
