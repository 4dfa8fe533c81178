import Mathlib.Data.List.Forall2
import SdlAssembly.Proofs.Schema.Legibility
import SdlAssembly.Proofs.Schema.PrintedAgain
import SdlAssembly.Proofs.StrictBuilding

/-!
# Definitions that tell a schema

The definitions that a schema is printed as are enough to build it again: its types and directives
with all that is printed of them, and its root types as far as a schema definition binds them.
-/

namespace SdlAssembly.Model

open Grammar Documents Schemas Except

/-! ## Definitions and types -/

section Pairs

variable {α β : Type} {r : α → β → Prop} {as : List α} {bs : List β}

theorem exists_right_of_forall₂ (h : List.Forall₂ r as bs) : ∀ a ∈ as, ∃ b ∈ bs, r a b := by
  induction h with
  | nil => simp
  | cons hab _ ih =>
      refine List.forall_mem_cons.mpr ⟨⟨_, List.mem_cons_self, hab⟩, fun a ha => ?_⟩
      obtain ⟨b, hb, hr⟩ := ih a ha
      exact ⟨b, List.mem_cons_of_mem _ hb, hr⟩

theorem exists_left_of_forall₂ (h : List.Forall₂ r as bs) : ∀ b ∈ bs, ∃ a ∈ as, r a b :=
  exists_right_of_forall₂ h.flip

theorem map_eq_map_of_forall₂ {γ : Type} {f : α → γ} {g : β → γ}
    (h : List.Forall₂ (fun a b => f a = g b) as bs) : as.map f = bs.map g := by
  induction h with
  | nil => rfl
  | cons hab _ ih => rw [List.map_cons, List.map_cons, hab, ih]

end Pairs

/-- Definitions of the types and directives that a schema shows, with what it says of itself. -/
structure DefinedBy (schema : Schema) (definitions : List Definition) : Prop where
  unextended : Unextended definitions
  types : List.Forall₂ (ToldBy schema) schema.shownTypes (typeDefinitions definitions)
  directives : (directiveDefinitions definitions).map DirectiveDefinition.unplaced =
    schema.shownDirectives.map schema.directiveNode
  nodes : (schemaNodes definitions).1.map SchemaNode.unplaced = schema.schemaDefinitions

theorem mem_shownTypes {schema : Schema} {t : NamedType} : t ∈ schema.shownTypes ↔
    t ∈ schema.types ∧ isStandardType t.name = false := by
  simp [Schema.shownTypes]

theorem mem_shownDirectives {schema : Schema} {d : DirectiveType} : d ∈ schema.shownDirectives ↔
    d ∈ schema.directives ∧ isStandardDirective d.name = false := by
  simp [Schema.shownDirectives]

namespace DefinedBy

variable {schema : Schema} {definitions : List Definition} {meaning : String → Option NamedType}
  {name : String} {t : NamedType} {node : TypeNode}

theorem map_name (h : DefinedBy schema definitions) :
    (typeDefinitions definitions).map TypeNode.name = schema.shownTypes.map NamedType.name :=
  (map_eq_map_of_forall₂ (h.types.imp fun _ _ ht => ht.name.symm)).symm

theorem not_standard (h : DefinedBy schema definitions) (hn : node ∈ typeDefinitions definitions) :
    isStandardType node.name = false := by
  obtain ⟨t, ht, htold⟩ := exists_left_of_forall₂ h.types node hn
  rw [htold.name]
  exact (mem_shownTypes.mp ht).2

theorem plain (h : DefinedBy schema definitions) (hd : schema.typeNames.Nodup) :
    Plain definitions where
  toUnextended := h.unextended
  nodup := h.map_name ▸ hd.sublist (List.filter_sublist.map _)
  notBuiltin := fun _ hn => (Bool.or_eq_false_iff.mp (h.not_standard hn)).1
  notReserved := fun _ hn =>
    (Bool.or_eq_false_iff.mp (h.not_standard (mem_scalars.mp hn).1)).2

/-- The definition of a type that is shown. -/
theorem lastDefinition? (h : DefinedBy schema definitions) (hd : schema.typeNames.Nodup)
    (ht : schema.type? name = some t) (hs : isStandardType name = false) :
    ∃ node, lastDefinition? definitions name = some node ∧ ToldBy schema t node := by
  have hname : t.name = name := find?_name ht
  have hshown : t ∈ schema.shownTypes :=
    mem_shownTypes.mpr ⟨List.mem_of_find?_eq_some ht, by rwa [hname]⟩
  obtain ⟨node, hn, htold⟩ := exists_right_of_forall₂ h.types t hshown
  exact ⟨node, (lastDefinition?_eq_some (h.plain hd).nodup).mpr ⟨hn, htold.name.trans hname⟩, htold⟩

/-- A type that is shown is found by its definition, or by the placeholder for it. -/
theorem find?_told (h : DefinedBy schema definitions) (hd : schema.typeNames.Nodup)
    (ht : schema.type? name = some t) (hs : isStandardType name = false) :
    ∃ node, (Plain.replacedSources definitions).find? name = some (replacement node)
      ∧ ToldBy schema t node := by
  obtain ⟨node, hlast, htold⟩ := h.lastDefinition? hd ht hs
  refine ⟨node, ?_, htold⟩
  rw [(h.plain hd).find?_replaced hs, hlast, Option.map_some]

/-- A type that is not there is not defined either. -/
theorem find?_absent (h : DefinedBy schema definitions) (hd : schema.typeNames.Nodup)
    (ht : schema.type? name = none) (hs : isStandardType name = false) :
    (Plain.replacedSources definitions).find? name = none := by
  have hlast : Schemas.lastDefinition? definitions name = none := by
    refine Option.eq_none_iff_forall_ne_some.mpr fun node hlast => ?_
    obtain ⟨hm, rfl⟩ := (lastDefinition?_eq_some (h.plain hd).nodup).mp hlast
    obtain ⟨t, hin, htold⟩ := exists_left_of_forall₂ h.types node hm
    have hfound := (Schema.mem_types hd).mp (mem_shownTypes.mp hin).1
    rw [← htold.name, ht] at hfound
    cases hfound
  rw [(h.plain hd).find?_replaced hs, hlast]
  rfl

/-- With placeholders for their scalars, the definitions tell the schema. -/
theorem retells (h : DefinedBy schema definitions) (hl : schema.Lists meaning)
    (hk : KeepsStandard meaning) : Retells schema (Plain.replacedSources definitions) := by
  refine ⟨named_sourcesOf _ _, fun name t ht hs => ?_, fun name t url ht hs hshape => ?_,
    fun name t ht hs hne => ?_, fun name ht hs => h.find?_absent hl.nodup ht hs⟩
  · have hstandard : standardType? name = some t := by
      rw [← hk name hs, ← find?_name ht]
      exact hl.sound t (List.mem_of_find?_eq_some ht)
    exact ⟨find?_of_standard hstandard,
      isInputObject_standard t (List.mem_of_find?_eq_some hstandard)⟩
  · obtain ⟨node, hf, htold⟩ := h.find?_told hl.nodup ht hs
    have hbody := body_of_unplaced htold.body
    rw [hshape] at hbody
    have hb : node.body = .scalar := hbody
    have htype : (Placeholder.ofDefinition node).type = t.unspecified := by
      rw [Placeholder.ofDefinition, htold.name, htold.description, text_describedAs,
        NamedType.unspecified, hshape]
      rfl
    rw [hf, replacement_scalar hb, htype]
  · obtain ⟨node, hf, htold⟩ := h.find?_told hl.nodup ht hs
    have hb : node.body ≠ .scalar := by
      intro hb
      have hbody := htold.body
      rw [hb] at hbody
      cases hshape : t.shape with
      | scalar url => exact hne url hshape
      | _ =>
          rw [hshape] at hbody
          cases hbody
    rw [replacement_of_ne hb] at hf
    exact ⟨node, hf, htold⟩

/-- The root types of a schema are bound unless it says nothing. -/
theorem nodes_eq (h : DefinedBy schema definitions) :
    (schemaNodes definitions).1.isEmpty = schema.saysNothing
      ∧ bindings definitions = if schema.saysNothing then [] else rootBindings schema := by
  have hnodes := h.nodes
  unfold bindings
  rw [h.unextended.schema]
  unfold Schema.schemaDefinitions at hnodes
  cases hs : schema.saysNothing with
  | true =>
      rw [hs, if_pos rfl, List.map_eq_nil_iff] at hnodes
      rw [hnodes]
      exact ⟨rfl, rfl⟩
  | false =>
      rw [hs, if_neg (by simp)] at hnodes
      obtain ⟨node, hnode, hu⟩ := List.map_eq_singleton_iff.mp hnodes
      rw [hnode]
      refine ⟨rfl, ?_⟩
      have hroots : node.roots = rootBindings schema := congrArg SchemaNode.roots hu
      simp [hroots]

end DefinedBy

/-! ## Building again -/

section Building

variable {schema : Schema} {definitions : List Definition} {meaning : String → Option NamedType}
  {types : List NamedType} {name : String}

/-- How the defaults of a schema are read from definitions of it. -/
abbrev shapeIn (definitions : List Definition) : String → Except BuildFault (InputShape BuildFault) :=
  (Plain.replacedSources definitions).shape

theorem readAtOnce_of_type {node : TypeNode} {sources : Sources} {t : NamedType}
    (h : (TypeSource.written node []).type sources = .ok t) :
    (TypeSource.written node []).readAtOnce = .ok () := by
  obtain ⟨description, name, directives, body⟩ := node
  obtain ⟨shape, hs, -⟩ := bind_eq_ok h
  cases body with
  | scalar =>
      obtain ⟨url, hu, -⟩ := bind_eq_ok hs
      exact (bind_of_ok (congrArg discard hu)).trans rfl
  | enum values =>
      obtain ⟨values, hv, -⟩ := bind_eq_ok hs
      exact (bind_of_ok (congrArg discard hv)).trans rfl
  | _ => rfl

variable (h : DefinedBy schema definitions) (hl : schema.Lists meaning)
  (hk : KeepsStandard meaning) (hlegible : schema.Legible)
  (hw : ∀ input ∈ schema.inputs, schema.CanWrite input)
include h hl hk hlegible hw

/-- Each name that is not standard has a source that gives its type as it is told. -/
theorem exists_source {t : NamedType} (ht : schema.type? name = some t)
    (hs : isStandardType name = false) :
    ∃ source, (Plain.replacedSources definitions).find? name = some source
      ∧ source.type (Plain.replacedSources definitions) =
        .ok (t.retold schema.type? (shapeIn definitions)) := by
  have hretells := h.retells hl hk
  by_cases hshape : ∃ url, t.shape = .scalar url
  · obtain ⟨url, hshape⟩ := hshape
    refine ⟨_, hretells.scalar name t url ht hs hshape, ?_⟩
    rw [NamedType.retold, hshape, NamedType.unspecified, hshape]
    rfl
  · have hne : ∀ url, t.shape ≠ .scalar url := fun url he => hshape ⟨url, he⟩
    obtain ⟨node, hf, htold⟩ := hretells.told name t ht hs hne
    refine ⟨_, hf, type_told hretells (hlegible.type ht hs) hne (fun input hi => ?_) htold⟩
    exact hretells.readBack hlegible hw input (mem_inputs_type ht hs input hi)

/-- Each source gives a type. -/
theorem exists_type {source : TypeSource} (hs : isStandardType name = false)
    (hf : (Plain.replacedSources definitions).find? name = some source) :
    ∃ t, source.type (Plain.replacedSources definitions) = .ok t := by
  cases ht : schema.type? name with
  | none =>
      rw [h.find?_absent hl.nodup ht hs] at hf
      cases hf
  | some t =>
      obtain ⟨source', hf', htype⟩ := exists_source h hl hk hlegible hw ht hs
      cases hf.symm.trans hf'
      exact ⟨_, htype⟩

/-- What is read of the definitions beside placeholders before any type is built. -/
theorem readAtOnce_kept : ∀ node ∈ typeDefinitions (withoutScalars definitions),
    (sourceOf [] node).readAtOnce = .ok () := by
  intro node hn
  have hplain := h.plain hl.nodup
  obtain ⟨hn, hb⟩ := typeDefinitions_withoutScalars.mp hn
  have hs := h.not_standard hn
  have hlast := (lastDefinition?_eq_some hplain.nodup).mpr ⟨hn, rfl⟩
  have hf := hplain.find?_replaced hs
  rw [hlast, Option.map_some, replacement_of_ne hb] at hf
  obtain ⟨t, ht⟩ := exists_type h hl hk hlegible hw hs hf
  rw [sourceOf, standardType?_eq_none hs]
  exact readAtOnce_of_type ht

omit hw in
/-- The types that are bound as root types are there. -/
theorem isSome_bindings : ∀ binding ∈ bindings definitions,
    ((Plain.replacedSources definitions).find? binding.type).isSome := by
  intro binding hb
  rw [h.nodes_eq.2] at hb
  split at hb
  · cases hb
  · obtain ⟨operation, -, hb⟩ := List.mem_filterMap.mp hb
    obtain ⟨root, hroot, rfl⟩ := Option.map_eq_some_iff.mp hb
    obtain ⟨t, ht⟩ := Option.isSome_iff_exists.mp (hlegible.roots operation root hroot).2
    obtain ⟨source, hf, -⟩ := (h.retells hl hk).tests ht
    rw [hf]
    rfl

/-- The definitions of a schema are built beside placeholders for its scalars. -/
theorem exists_builds : ∃ types, Builds (foundationOf definitions) (withoutScalars definitions)
    (foundationOf definitions).types
    (schema.shownDirectives.map (DirectiveType.retold schema.type? (shapeIn definitions))) types := by
  have hplain := h.plain hl.nodup
  have hretells := h.retells hl hk
  have hx := hplain.typeExtensions_withoutScalars
  obtain ⟨types, htypes⟩ := Builds.exists_types hplain.foundation_grounded
    fun name source => exists_type h hl hk hlegible hw
  refine ⟨types, mapM_eq_self fun t _ => by rw [hx, extendExisting_nil], ?_, ?_, ?_, htypes⟩
  · rw [hx]
    exact readAtOnce_kept h hl hk hlegible hw
  · rw [bindings_withoutScalars]
    exact isSome_bindings h hl hk hlegible
  · rw [directiveDefinitions_withoutScalars]
    refine mapM_told h.directives fun d hd node hn => ?_
    obtain ⟨hd, hs⟩ := mem_shownDirectives.mp hd
    refine directiveType_told hretells (hlegible.directives d hd hs) (fun a ha => ?_) hn
    refine hretells.readBack hlegible hw a (List.mem_append_left _ ?_)
    exact List.mem_flatMap.mpr ⟨d, List.mem_filter.mpr ⟨hd, by simp [hs]⟩, ha⟩

/-- Among definitions of a schema names stand for its types as they are told. -/
theorem tellsOf {added : List DirectiveType} (hb : Builds (foundationOf definitions)
    (withoutScalars definitions) (foundationOf definitions).types added types) :
    TellsOf schema (shapeIn definitions) (target? types) := by
  have hg := (h.plain hl.nodup).foundation_grounded
  refine ⟨keepsStandard_target? (hb.grounded_types hg), fun name hs => ?_⟩
  cases ht : schema.type? name with
  | none => exact hb.target?_eq_none hg ((h.retells hl hk).absent name ht hs)
  | some t =>
      obtain ⟨source, hf, htype⟩ := exists_source h hl hk hlegible hw ht hs
      obtain ⟨t', ht', htarget⟩ := hb.target?_of_find? hg hf
      cases htype.symm.trans ht'
      exact htarget

end Building

/-! ## Root types -/

/-- The root type that is read of a printed schema. Without a schema definition it is the object of
the conventional name. -/
def readRoot? (schema : Schema) (operation : OperationKind) : Option String :=
  if schema.saysNothing then
    if notObject schema (conventionalRoot operation) then none
    else some (conventionalRoot operation)
  else schema.root? operation

/-- The print of a schema tells its root types: without a schema definition, these are all objects
that have conventional names. -/
def TellsRoots (schema : Schema) : Prop :=
  schema.saysNothing → ∀ operation,
    schema.root? operation = none ↔ notObject schema (conventionalRoot operation)

section Roots

variable {schema schema' : Schema} {operation : OperationKind}

/-- A schema that says nothing of its root types gives them their conventional names. -/
theorem root?_of_saysNothing (h : schema.saysNothing) {name : String}
    (hr : schema.root? operation = some name) : name = conventionalRoot operation := by
  have hall := List.all_eq_true.mp (Bool.and_eq_true_iff.mp h).2 operation (mem_all operation)
  rw [hr] at hall
  exact eq_of_beq hall

theorem readRoot?_eq_iff : (∀ operation, readRoot? schema operation = schema.root? operation) ↔
    TellsRoots schema := by
  unfold readRoot? TellsRoots
  cases hs : schema.saysNothing with
  | false => simp
  | true =>
      simp only [if_true, forall_true_left]
      refine forall_congr' fun operation => ?_
      cases hr : schema.root? operation with
      | none => cases notObject schema (conventionalRoot operation) <;> simp
      | some name =>
          obtain rfl := root?_of_saysNothing hs hr
          cases notObject schema (conventionalRoot operation) <;> simp

theorem root?_bind_rootBindings (operation : OperationKind) :
    (Schema.bare.bind (rootBindings schema)).root? operation = schema.root? operation := by
  obtain ⟨description, types, directives, query, mutation, subscription, defined, unchecked⟩ := schema
  cases query <;> cases mutation <;> cases subscription <;> cases operation <;> rfl

theorem isObject_retold {type? : String → Option NamedType}
    {shape : String → Except BuildFault (InputShape BuildFault)} (t : NamedType) :
    (t.retold type? shape).isObject = t.isObject := by
  unfold NamedType.isObject NamedType.retold TypeShape.retold
  cases t.shape <;> rfl

theorem notObject_retold {shape : String → Except BuildFault (InputShape BuildFault)} {name : String}
    (hn : schema'.type? name = (schema.type? name).map (NamedType.retold schema.type? shape)) :
    notObject schema' name = notObject schema name := by
  unfold notObject
  rw [hn]
  cases schema.type? name with
  | none => rfl
  | some t => simp [isObject_retold]

end Roots

/-! ## The schema that is built again -/

/-- A schema that was built again from the definitions that another is printed as. It has the types
and directives that the other shows, which are printed alike where no part of a default is lost, and
the root types that are read of the print. -/
structure RebuiltAs (schema schema' : Schema) : Prop where
  names : (schema'.shownTypes.map NamedType.name).Perm (schema.shownTypes.map NamedType.name)
  types : ∀ t ∈ schema.shownTypes, (∀ input ∈ t.inputs, schema.KeepsDefault input) →
    ∃ t' ∈ schema'.shownTypes, t'.name = t.name ∧ printType schema' t' = printType schema t
  directives : List.Forall₂ (fun d d' => d'.name = d.name
      ∧ ((∀ a ∈ d.arguments, schema.KeepsDefault a) →
        printDirectiveType schema' d' = printDirectiveType schema d))
    schema.shownDirectives schema'.shownDirectives
  roots : ∀ operation, schema'.root? operation = readRoot? schema operation

theorem RebuiltAs.roots_iff {schema schema' : Schema} (h : RebuiltAs schema schema') :
    (∀ operation, schema'.root? operation = schema.root? operation) ↔ TellsRoots schema := by
  rw [← readRoot?_eq_iff]
  exact forall_congr' fun operation => by rw [h.roots]

section Rebuilding

variable {schema schema' : Schema} {meaning meaning' : String → Option NamedType}
  {shape : String → Except BuildFault (InputShape BuildFault)}

theorem nodup_shownTypes (hl : schema.Lists meaning) :
    (schema.shownTypes.map NamedType.name).Nodup :=
  hl.nodup.sublist (List.filter_sublist.map _)

theorem mem_inputs_retold {type? : String → Option NamedType} {t : NamedType} :
    ∀ input ∈ (t.retold type? shape).inputs,
      ∃ field ∈ t.inputs, ∃ described, input = field.retold type? shape described := by
  have hfields : (t.retold type? shape).fields = t.fields.map (Field.retold type? shape) := by
    unfold NamedType.fields NamedType.retold TypeShape.retold
    cases t.shape <;> rfl
  have hinputs : (t.retold type? shape).inputFields =
      t.inputFields.map (InputField.retold type? shape true) := by
    unfold NamedType.inputFields NamedType.retold TypeShape.retold
    cases t.shape <;> rfl
  intro input hi
  rcases List.mem_append.mp hi with hi | hi
  · rw [hfields, List.flatMap_map] at hi
    obtain ⟨field, hf, hi⟩ := List.mem_flatMap.mp hi
    obtain ⟨a, ha, rfl⟩ := List.mem_map.mp hi
    exact ⟨a, List.mem_append_left _ (List.mem_flatMap.mpr ⟨field, hf, ha⟩), _, rfl⟩
  · rw [hinputs] at hi
    obtain ⟨field, hf, rfl⟩ := List.mem_map.mp hi
    exact ⟨field, List.mem_append_right _ hf, true, rfl⟩

section Types

variable (hl : schema.Lists meaning) (hl' : schema'.Lists meaning') (hm : TellsOf schema shape meaning')
include hl hl' hm

theorem mem_shownTypes_retold {t' : NamedType} : t' ∈ schema'.shownTypes ↔
    ∃ t ∈ schema.shownTypes, t' = t.retold schema.type? shape := by
  simp only [mem_shownTypes, Schema.mem_types hl'.nodup, Schema.mem_types hl.nodup]
  constructor
  · rintro ⟨ht', hs⟩
    rw [hl'.type?_eq hs, hm.plain _ hs] at ht'
    obtain ⟨t, ht, rfl⟩ := Option.map_eq_some_iff.mp ht'
    exact ⟨t, ⟨ht, hs⟩, rfl⟩
  · rintro ⟨t, ⟨ht, hs⟩, rfl⟩
    refine ⟨?_, hs⟩
    have hname : (t.retold schema.type? shape).name = t.name := rfl
    rw [hname, hl'.type?_eq hs, hm.plain _ hs, ht]
    rfl

theorem perm_shownTypes : (schema'.shownTypes.map NamedType.name).Perm
    (schema.shownTypes.map NamedType.name) := by
  refine (List.perm_ext_iff_of_nodup (nodup_shownTypes hl') (nodup_shownTypes hl)).mpr fun name => ?_
  constructor
  · intro hn
    obtain ⟨t', ht', rfl⟩ := List.mem_map.mp hn
    obtain ⟨t, ht, rfl⟩ := (mem_shownTypes_retold hl hl' hm).mp ht'
    exact List.mem_map.mpr ⟨t, ht, rfl⟩
  · intro hn
    obtain ⟨t, ht, rfl⟩ := List.mem_map.mp hn
    exact List.mem_map.mpr ⟨_, (mem_shownTypes_retold hl hl' hm).mpr ⟨t, ht, rfl⟩, rfl⟩

/-- What a shown type leads to is listed in both schemas. -/
theorem listedIn_type {t : NamedType} (ht : t ∈ schema.shownTypes) :
    ∀ name ∈ t.leadsTo, ListedIn schema schema' meaning meaning' name := by
  intro name hn
  have ht' := (mem_shownTypes_retold hl hl' hm).mpr ⟨t, ht, rfl⟩
  refine ⟨hl.closed t (mem_shownTypes.mp ht).1 name hn, ?_⟩
  exact hl'.closed _ (mem_shownTypes.mp ht').1 name (by rwa [leadsTo_retold])

end Types

section Directives

variable (hl : schema.Lists meaning) (hl' : schema'.Lists meaning')
  (hd : schema'.shownDirectives =
    schema.shownDirectives.map (DirectiveType.retold schema.type? shape))
include hl hl' hd

theorem listedIn_directive {d : DirectiveType} (hin : d ∈ schema.shownDirectives) :
    ∀ a ∈ d.arguments, ListedIn schema schema' meaning meaning' a.type.core := by
  intro a ha
  have hin' : d.retold schema.type? shape ∈ schema'.shownDirectives := hd ▸ List.mem_map_of_mem hin
  refine ⟨hl.directives d (mem_shownDirectives.mp hin).1 a ha, ?_⟩
  exact hl'.directives _ (mem_shownDirectives.mp hin').1 (a.retold schema.type? shape _)
    (List.mem_map_of_mem ha)

end Directives

variable (hl : schema.Lists meaning) (hk : KeepsStandard meaning) (hl' : schema'.Lists meaning')
  (hm : TellsOf schema shape meaning')
  (hd : schema'.shownDirectives =
    schema.shownDirectives.map (DirectiveType.retold schema.type? shape))
  (hr : ∀ input ∈ schema.inputs, input.ReadBack schema.type? shape)
include hl hk hl' hm hd hr

/-- A schema of retold types and directives is printed like the one that they were told of. -/
theorem rebuiltAs (hurl : ∀ t ∈ schema.shownTypes, ∀ url, t.shape = .scalar url → url = none)
    (hroots : ∀ operation, schema'.root? operation = readRoot? schema operation) :
    RebuiltAs schema schema' where
  names := perm_shownTypes hl hl' hm
  types := by
    intro t ht hkeep
    refine ⟨_, (mem_shownTypes_retold hl hl' hm).mpr ⟨t, ht, rfl⟩, rfl, ?_⟩
    refine printType_retold (hm.writesAlikeOn hl hk hl') (fun input hi => hr input ?_)
      (listedIn_type hl hl' hm ht) hkeep (hurl t ht)
    exact List.mem_append_right _ (List.mem_flatMap.mpr ⟨t, ht, hi⟩)
  directives := by
    rw [hd]
    refine List.forall₂_map_right_iff.mpr (List.forall₂_same.mpr fun d hin => ⟨rfl, fun hkeep => ?_⟩)
    refine printDirectiveType_retold (hm.writesAlikeOn hl hk hl') (fun a ha => hr a ?_)
      (listedIn_directive hl hl' hd hin) hkeep
    exact List.mem_append_left _ (List.mem_flatMap.mpr ⟨d, hin, ha⟩)
  roots := hroots

/-- A schema of retold types and directives can be printed. -/
theorem exists_printSchema : ∃ text, printSchema schema' = .ok text := by
  refine printSchema_isOk_iff.mpr fun input hi => ?_
  have halike := hm.writesAlikeOn hl hk hl'
  rcases List.mem_append.mp hi with hi | hi
  · obtain ⟨d', hd', hi⟩ := List.mem_flatMap.mp hi
    have hd' : d' ∈ schema'.shownDirectives := hd'
    rw [hd] at hd'
    obtain ⟨d, hin, rfl⟩ := List.mem_map.mp hd'
    obtain ⟨a, ha, rfl⟩ := List.mem_map.mp hi
    refine canWrite_retold halike (hr a ?_) (listedIn_directive hl hl' hd hin a ha) _
    exact List.mem_append_left _ (List.mem_flatMap.mpr ⟨d, hin, ha⟩)
  · obtain ⟨t', ht', hi⟩ := List.mem_flatMap.mp hi
    obtain ⟨t, ht, rfl⟩ := (mem_shownTypes_retold hl hl' hm).mp ht'
    obtain ⟨field, hf, described, rfl⟩ := mem_inputs_retold input hi
    have hin : field.type.core ∈ t.leadsTo := by
      rcases List.mem_append.mp hf with hf | hf
      · obtain ⟨f, hm, ha⟩ := List.mem_flatMap.mp hf
        exact leadsTo_argument hm ha
      · exact leadsTo_input hf
    refine canWrite_retold halike (hr field ?_) (listedIn_type hl hl' hm ht _ hin) _
    exact List.mem_append_right _ (List.mem_flatMap.mpr ⟨t, ht, hf⟩)

end Rebuilding

end SdlAssembly.Model
