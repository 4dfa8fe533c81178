import SdlAssembly.Proofs.BuildOutcomes
import SdlAssembly.Proofs.Composing
import SdlAssembly.Proofs.Telling

/-!
# Composed texts that are assembled again

The text that a model is composed to is a document of its own. Assembled alone and built without
validation, it gives a schema with the types and directives of the first, printed alike where no part
of a default is lost. The root types are those of the first unless the print leaves the schema
definition out, which it does where all root types have their conventional names.
-/

namespace SdlAssembly.Schemas

open Grammar Annotated

/-! ## Places -/

section Unplaced

variable {schema : Schema}

theorem unplaced_deprecationMarks (deprecation : Option String) :
    (deprecationMarks deprecation).map Directive.unplaced = deprecationMarks deprecation := by
  cases deprecation with
  | none => rfl
  | some reason =>
      unfold deprecationMarks
      dsimp only
      split <;> rfl

theorem unplaced_inputDefinition (described : Bool) (field : InputField) :
    (schema.inputDefinition described field).unplaced = schema.inputDefinition described field := by
  rw [InputDefinition.unplaced, Schema.inputDefinition, InputField.definition,
    unplaced_deprecationMarks]

theorem unplaced_argumentDefinitions (arguments : List InputField) :
    (schema.argumentDefinitions arguments).map InputDefinition.unplaced =
      schema.argumentDefinitions arguments := by
  rw [Schema.argumentDefinitions, List.map_map]
  exact List.map_congr_left fun a _ => unplaced_inputDefinition _ a

theorem unplaced_fieldDefinition (field : Field) :
    (schema.fieldDefinition field).unplaced = schema.fieldDefinition field := by
  rw [FieldDefinition.unplaced, Schema.fieldDefinition, unplaced_argumentDefinitions,
    unplaced_deprecationMarks]

theorem unplaced_enumValue (value : EnumValue) : value.definition.unplaced = value.definition := by
  rw [EnumValueDefinition.unplaced, EnumValue.definition, unplaced_deprecationMarks]

theorem unplaced_body (shape : TypeShape) : (schema.body shape).unplaced = schema.body shape := by
  have hfields : ∀ fields : List Field, (fields.map schema.fieldDefinition).map
      FieldDefinition.unplaced = fields.map schema.fieldDefinition := by
    intro fields
    rw [List.map_map]
    exact List.map_congr_left fun field _ => unplaced_fieldDefinition field
  cases shape with
  | object interfaces fields => exact congrArg (TypeBody.object interfaces) (hfields fields)
  | interface interfaces fields => exact congrArg (TypeBody.interface interfaces) (hfields fields)
  | enum values =>
      refine congrArg TypeBody.enum ?_
      rw [List.map_map]
      exact List.map_congr_left fun value _ => unplaced_enumValue value
  | inputObject fields oneOf =>
      refine congrArg TypeBody.inputObject ?_
      rw [List.map_map]
      exact List.map_congr_left fun field _ => unplaced_inputDefinition true field
  | _ => rfl

theorem unplaced_directiveNode (d : DirectiveType) :
    (schema.directiveNode d).unplaced = schema.directiveNode d := by
  rw [DirectiveDefinition.unplaced, Schema.directiveNode, unplaced_argumentDefinitions]

theorem unplaced_schemaDefinitions :
    schema.schemaDefinitions.map SchemaNode.unplaced = schema.schemaDefinitions := by
  unfold Schema.schemaDefinitions
  split <;> rfl

end Unplaced

/-! ## Definitions by kind -/

section Kinds

variable (definitions : List Definition)

theorem typeDefinitions_unplaced : typeDefinitions (definitions.map Definition.unplaced) =
    (typeDefinitions definitions).map TypeNode.unplaced := by
  unfold typeDefinitions
  rw [List.filterMap_map, List.map_filterMap]
  refine List.filterMap_congr fun d _ => ?_
  cases d <;> rfl

theorem directiveDefinitions_unplaced :
    directiveDefinitions (definitions.map Definition.unplaced) =
      (directiveDefinitions definitions).map DirectiveDefinition.unplaced := by
  unfold directiveDefinitions
  rw [List.filterMap_map, List.map_filterMap]
  refine List.filterMap_congr fun d _ => ?_
  cases d <;> rfl

theorem schemaNodes_unplaced : (schemaNodes (definitions.map Definition.unplaced)).1 =
      (schemaNodes definitions).1.map SchemaNode.unplaced
    ∧ (schemaNodes (definitions.map Definition.unplaced)).2 = (schemaNodes definitions).2 := by
  unfold schemaNodes
  dsimp only
  rw [List.filterMap_map, List.filterMap_map, List.map_filterMap]
  constructor
  · refine List.filterMap_congr fun d _ => ?_
    cases d <;> rfl
  · refine List.filterMap_congr fun d _ => ?_
    cases d <;> rfl

theorem typeExtensions_unplaced :
    typeExtensions (definitions.map Definition.unplaced) = typeExtensions definitions := by
  unfold typeExtensions
  rw [List.filterMap_map]
  refine List.filterMap_congr fun d _ => ?_
  cases d <;> rfl

/-- A type definition with the directives of a map. -/
def appended (map : DirectiveMap) (node : TypeNode) : TypeNode :=
  { node with directives := node.directives ++ (map.lookup node.name).getD [] }

variable (map : DirectiveMap)

theorem typeDefinitions_map_append : typeDefinitions (definitions.map (appendDirectives map)) =
    (typeDefinitions definitions).map (appended map) := by
  unfold typeDefinitions
  rw [List.filterMap_map, List.map_filterMap]
  refine List.filterMap_congr fun d _ => ?_
  cases d <;> rfl

theorem others_map_append :
    directiveDefinitions (definitions.map (appendDirectives map)) = directiveDefinitions definitions
      ∧ schemaNodes (definitions.map (appendDirectives map)) = schemaNodes definitions
      ∧ typeExtensions (definitions.map (appendDirectives map)) = typeExtensions definitions := by
  unfold directiveDefinitions schemaNodes typeExtensions
  simp only [List.filterMap_map]
  refine ⟨List.filterMap_congr fun d _ => ?_, Prod.ext ?_ ?_, List.filterMap_congr fun d _ => ?_⟩
  · cases d <;> rfl
  · refine List.filterMap_congr fun d _ => ?_
    cases d <;> rfl
  · refine List.filterMap_congr fun d _ => ?_
    cases d <;> rfl
  · cases d <;> rfl

end Kinds

/-- The definitions that a schema is printed as, by their kinds. -/
theorem definitions_kinds (schema : Schema) :
    typeDefinitions schema.definitions = schema.shownTypes.map schema.typeNode
      ∧ directiveDefinitions schema.definitions = schema.shownDirectives.map schema.directiveNode
      ∧ schemaNodes schema.definitions = (schema.schemaDefinitions, [])
      ∧ typeExtensions schema.definitions = [] := by
  simp [typeDefinitions, directiveDefinitions, schemaNodes, typeExtensions, Schema.definitions,
    List.filterMap_append, List.filterMap_map]

end SdlAssembly.Schemas

namespace SdlAssembly.Model

open Grammar Documents Annotation Schemas Annotated Except

/-! ## Texts as definitions of a schema -/

section Texts

variable {annotated : AnnotatedSchema} {schema : Schema} {Kind : SelectionSet → Prop}
  {definitions : List Definition}

theorem isOneOf_iff {node : TypeNode} :
    isOneOf node ↔ oneOfDirective ∈ node.directives.map Directive.name := by
  simp [isOneOf, firstDirective?]

/-- What is read as the definition of a type with its metadata tells the type. -/
theorem toldBy_unplaced {t : NamedType} {node : TypeNode} {m : Metadata}
    (hu : node.unplaced = TypeNode.unplaced { schema.typeNode t with
      directives := t.shape.marks ++ m.directives }) : ToldBy schema t node := by
  have hbody : node.body.unplaced = (schema.body t.shape).unplaced := congrArg TypeNode.body hu
  have hdescription : node.description = describedAs t.description :=
    congrArg TypeNode.description hu
  have hname : node.name = t.name := congrArg TypeNode.name hu
  refine ⟨hdescription, hname, hbody.trans (unplaced_body _), fun fields oneOf hs => ?_⟩
  have hdirectives : node.directives.map Directive.unplaced =
      (t.shape.marks ++ m.directives).map Directive.unplaced := congrArg TypeNode.directives hu
  have hnames := congrArg (List.map Directive.name) hdirectives
  rw [List.map_map, List.map_map] at hnames
  have hnames : node.directives.map Directive.name =
      (t.shape.marks ++ m.directives).map Directive.name := hnames
  have hmetadata : oneOfDirective ∉ m.directives.map Directive.name := by
    intro hm
    obtain ⟨d, hd, hn⟩ := List.mem_map.mp hm
    obtain ⟨name, ha, argument, text, -, rfl⟩ := exists_stringDirective hd
    obtain rfl : name = oneOfDirective := hn
    exact absurd ha (by decide)
  have hmarks : t.shape.marks = oneOfMarks oneOf := by rw [hs, TypeShape.marks]
  rw [Bool.eq_iff_iff, isOneOf_iff, hnames, List.map_append, List.mem_append, hmarks]
  cases oneOf <;> simp [oneOfMarks, hmetadata]

/-- What is read as the definitions of a schema with their metadata defines what it shows. -/
theorem definedBy_unplaced (h : annotated.Holds schema Kind)
    (hu : definitions.map Definition.unplaced =
      (schema.definitions.map (appendDirectives annotated.directives)).map Definition.unplaced) :
    DefinedBy schema definitions := by
  obtain ⟨htypes, hdirectives, hnodes, hextensions⟩ := definitions_kinds schema
  obtain ⟨hdirectives', hnodes', hextensions'⟩ :=
    others_map_append schema.definitions annotated.directives
  refine ⟨⟨?_, ?_⟩, ?_, ?_, ?_⟩
  · rw [← typeExtensions_unplaced, hu, typeExtensions_unplaced, hextensions', hextensions]
  · rw [← (schemaNodes_unplaced _).2, hu, (schemaNodes_unplaced _).2, hnodes', hnodes]
  · have htold := typeDefinitions_unplaced definitions
    rw [hu, typeDefinitions_unplaced, typeDefinitions_map_append, htypes, List.map_map,
      List.map_map] at htold
    have htold := List.forall₂_map_left_iff.mp (List.forall₂_map_right_iff.mp
      (List.forall₂_eq_eq_eq ▸ htold))
    refine htold.imp fun t node he => toldBy_unplaced (m := annotated.metadataOf t.name) ?_
    rw [← h.directives]
    exact he.symm
  · rw [← directiveDefinitions_unplaced, hu, directiveDefinitions_unplaced, hdirectives',
      hdirectives, List.map_map]
    exact List.map_congr_left fun d _ => unplaced_directiveNode d
  · rw [← (schemaNodes_unplaced _).1, hu, (schemaNodes_unplaced _).1, hnodes', hnodes]
    exact unplaced_schemaDefinitions

theorem not_annotates_of_unextended {d : NamedDocument} (h : Unextended d.document.definitions) :
    ¬annotates d := by
  intro ha
  obtain ⟨x, hx, he⟩ := List.any_eq_true.mp ha
  cases x with
  | typeExtension node =>
      have hm : node ∈ typeExtensions d.document.definitions := List.mem_filterMap.mpr ⟨_, hx, rfl⟩
      rw [h.types] at hm
      cases hm
  | schemaExtension node =>
      have hm : node ∈ (schemaNodes d.document.definitions).2 := List.mem_filterMap.mpr ⟨_, hx, rfl⟩
      rw [h.schema] at hm
      cases hm
  | _ => cases he

end Texts

/-! ## Scalars of assembled models -/

section Scalars

variable {documents : List NamedDocument} {strict skip : Bool} {model : TypeSystem}
  {schema : Schema}

theorem collectAllPlaceholders_ok {documents : List Document}
    {placeholders placeholders' : Placeholders}
    (h : (collectAllPlaceholders placeholders documents).value = (placeholders', none)) :
    placeholders' = placeholders.addAll (scalarEntries (documents.flatMap (·.definitions))) := by
  induction documents generalizing placeholders with
  | nil => exact (congrArg Prod.fst h).symm
  | cons document documents ih =>
      obtain ⟨middle, hfirst, hrest⟩ := collectAllPlaceholders_cons.mp h
      have hfirst := registerScalars_ok hfirst
      rw [typesIn_eq fun x => (inRole?_eq x).1] at hfirst
      rw [ih hrest, hfirst, List.flatMap_cons, scalarEntries, scalarEntries, List.filterMap_append,
        List.filter_append, List.map_append, Registry.addAll_append]
      rfl

/-- Every scalar of an assembled model is replaced by its placeholder. -/
theorem retained_ne_scalar (h : (assemble (some documents) strict skip).value = .ok model) :
    ∀ node ∈ typeDefinitions model.retained, node.body ≠ .scalar := by
  obtain ⟨merged, hm, rfl⟩ := assemble_eq_ok.mp h
  intro node hn hb
  obtain ⟨hin, hkept⟩ := List.mem_filter.mp (mem_typeDefinitions.mp hn)
  rw [addDefaults_value] at hin hkept
  have hin : .type node ∈ merged.definitions := hin
  have hkept : (!(merged.placeholders.contains node.name || isBuiltinScalar node.name)) = true := by
    simpa [TypeSystem.replaces, hb] using hkept
  obtain ⟨hplaceholder, hbuiltin⟩ : merged.placeholders.contains node.name = false
      ∧ isBuiltinScalar node.name = false := by simpa using hkept
  rw [hm.definitions, List.nil_append] at hin
  rw [collectAllPlaceholders_ok hm.placeholders, Registry.contains_addAll_empty,
    List.any_eq_false] at hplaceholder
  have hscalar : node ∈ ((definitionDocuments documents).flatMap (·.definitions)).filterMap
      scalarDefinition? := List.mem_filterMap.mpr ⟨_, hin, scalarDefinition?_eq_some hb⟩
  refine hplaceholder (node.name, _) (List.mem_map.mpr ⟨node, ?_, rfl⟩) (by simp)
  exact List.mem_filter.mpr ⟨hscalar, by simp [hbuiltin]⟩

theorem foundation_scalar (hs : model.Sound) {name : String} {t : NamedType}
    (ht : model.foundation.types.find? (fun t => t.name == name) = some t)
    (hn : isStandardType name = false) : t.shape = .scalar none := by
  have hd : ((model.placeholders.values.map Placeholder.type).map NamedType.name).Nodup := by
    rw [List.map_map]
    exact hs.nodup
  rw [TypeSystem.foundation, find?_ofTypes hd hn] at ht
  obtain ⟨p, -, rfl⟩ := List.mem_map.mp (List.mem_of_find?_eq_some ht)
  rfl

/-- How the schema of an assembled model was built. -/
theorem build_assembled (hs : model.Sound)
    (h : (assemble (some documents) strict skip).value = .ok model)
    (hb : model.build.value = .ok schema) : ∃ added types,
      Builds model.foundation model.retained model.foundation.types added types
        ∧ schema.Lists (target? types) ∧ KeepsStandard (target? types)
        ∧ ∀ input ∈ schema.inputs, schema.CanWrite input := by
  obtain ⟨-, -, -, -, hp⟩ := build_eq_ok.mp hb
  obtain ⟨added, types, hbuilds, hlists, hstandard⟩ :=
    build_lists (typeExtensions_assembled h) hs.onlyScalars.toGrounded hb
  exact ⟨added, types, hbuilds, hlists, hstandard, printSchema_isOk_iff.mp hp⟩

/-- A scalar of an assembled model has no address of a specification. -/
theorem unspecified_assembled (hs : model.Sound)
    (h : (assemble (some documents) strict skip).value = .ok model)
    (hb : model.build.value = .ok schema) :
    ∀ t ∈ schema.shownTypes, ∀ url, t.shape = .scalar url → url = none := by
  obtain ⟨added, types, hbuilds, hlists, -, -⟩ := build_assembled hs h hb
  have hx := typeExtensions_assembled h
  intro t ht url hurl
  obtain ⟨ht, hn⟩ := mem_shownTypes.mp ht
  obtain ⟨source, hf, hsource⟩ :=
    (hbuilds.target?_eq_some hs.onlyScalars.toGrounded).mp (hlists.sound t ht)
  rw [find?_sourcesOf hn] at hf
  rcases Option.or_eq_some_iff.mp hf with hf | ⟨-, hf⟩
  · obtain ⟨node, hlast, rfl⟩ := Option.map_eq_some_iff.mp hf
    have hnode : node ∈ typeDefinitions model.retained :=
      List.mem_reverse.mp (List.mem_of_find?_eq_some hlast)
    obtain ⟨shape, hshape, hsource⟩ := bind_eq_ok hsource
    cases hsource
    exact (shapeOf_ne_scalar (retained_ne_scalar h node hnode) hshape url hurl).elim
  · obtain ⟨found, hfound, rfl⟩ := Option.map_eq_some_iff.mp hf
    cases hsource
    cases (foundation_scalar hs hfound hn).symm.trans hurl
    rfl

end Scalars

/-! ## Assembling a composed text -/

/-- The schema of definitions beside placeholders, without validation. -/
def readSchema (definitions : List Definition) (added : List DirectiveType)
    (types : List NamedType) : Schema :=
  (((foundationOf definitions).withDefinitions (withoutScalars definitions) true added).arrange
    types).withDefaultRoots

section Reading

variable {schema : Schema} {definitions : List Definition} {meaning : String → Option NamedType}
  {shape : String → Except BuildFault (InputShape BuildFault)} {types : List NamedType}

/-- The schema of definitions that are assembled without validation. -/
theorem build_unchecked {added : List DirectiveType} {model : TypeSystem} (h : Plain definitions)
    (hm : model.Defines definitions false)
    (hb : Builds (foundationOf definitions) (withoutScalars definitions)
      (foundationOf definitions).types added types)
    (hp : ∃ text, printSchema (readSchema definitions added types) = .ok text) :
    model.build.value = .ok (readSchema definitions added types) := by
  have hd := h.toDefinesOnce
  have hextend : model.foundation.extend model.retained true =
      .ok (((foundationOf definitions).withDefinitions (withoutScalars definitions) true
        added).arrange types) := by
    rw [hm.foundation hd, hm.retained]
    exact (extend_eq_ok h.typeExtensions_withoutScalars).mpr ⟨added, types, hb, rfl⟩
  refine build_eq_ok.mpr ⟨_, extended_eq_ok.mpr ⟨?_, ?_⟩, rfl, ?_, hp⟩
  · simp [hm.strict]
  · rw [hm.strict]
    exact hextend
  · simp [hm.strict]

variable {added : List DirectiveType} (hb : Builds (foundationOf definitions)
  (withoutScalars definitions) (foundationOf definitions).types added types)
include hb

theorem lists_readSchema (h : Plain definitions) :
    (readSchema definitions added types).Lists (target? types) :=
  (arrange_lists _ (hb.nodup h.foundation_grounded)).withDefaultRoots
    (hb.grounded_types h.foundation_grounded)

theorem shownDirectives_readSchema (ha : ∀ d ∈ added, isStandardDirective d.name = false) :
    (readSchema definitions added types).shownDirectives = added := by
  have hstandard : standardDirectives.filter (fun d => !isStandardDirective d.name) = [] := by
    decide
  have hdirectives : (readSchema definitions added types).directives = standardDirectives ++ added :=
    (withDefaultRoots_frame _).1.trans (hb.withDefinitions_frame true).1
  rw [Schema.shownDirectives, hdirectives, List.filter_append, hstandard, List.nil_append]
  exact List.filter_eq_self.mpr fun d hd => by simp [ha d hd]

/-- The root types of definitions of a schema are read as its print says. -/
theorem root?_readSchema (h : DefinedBy schema definitions) (hl : schema.Lists meaning)
    (hm : TellsOf schema shape (target? types)) (operation : OperationKind) :
    (readSchema definitions added types).root? operation = readRoot? schema operation := by
  obtain ⟨hroot, hdefined⟩ := roots_kept hb true
  obtain ⟨hnodes, hbindings⟩ := h.nodes_eq
  have hlists := arrange_lists ((foundationOf definitions).withDefinitions
    (withoutScalars definitions) true added) (hb.nodup (h.plain hl.nodup).foundation_grounded)
  rw [hbindings] at hroot
  rw [hnodes] at hdefined
  unfold readSchema
  generalize (foundationOf definitions).withDefinitions (withoutScalars definitions) true added =
    merged at hroot hdefined hlists
  have hobject : notObject (merged.arrange types) (conventionalRoot operation) =
      notObject schema (conventionalRoot operation) := by
    have hs : isStandardType (conventionalRoot operation) = false := by cases operation <;> decide
    exact notObject_retold ((hlists.type?_eq hs).trans (hm.plain _ hs))
  have hroot : (merged.arrange types).root? operation = (Schema.bare.bind
      (if schema.saysNothing then [] else rootBindings schema)).root? operation := by
    rw [← hroot]
    cases operation <;> rfl
  have hdefined : (merged.arrange types).defined = !schema.saysNothing := hdefined
  rw [root?_withDefaultRoots, hobject, hroot, hdefined, readRoot?]
  cases schema.saysNothing with
  | true =>
      have hnone : (Schema.bare.bind []).root? operation = none := by cases operation <;> rfl
      rw [if_pos rfl, if_pos rfl, hnone]
      cases notObject schema (conventionalRoot operation) <;> simp
  | false => simp [root?_bind_rootBindings]

end Reading

section Recomposing

variable {documents : List NamedDocument} {strict skip : Bool} {model : TypeSystem}
  {schema : Schema} {definitions : List Definition} {meaning : String → Option NamedType}
  {text : String}

/-- Definitions of a schema give it again where they are assembled without validation. -/
theorem exists_rebuilt (h : DefinedBy schema definitions) (hl : schema.Lists meaning)
    (hk : KeepsStandard meaning) (hlegible : schema.Legible)
    (hw : ∀ input ∈ schema.inputs, schema.CanWrite input)
    (hurl : ∀ t ∈ schema.shownTypes, ∀ url, t.shape = .scalar url → url = none)
    (hm : model.Defines definitions false) :
    ∃ schema', model.build.value = .ok schema' ∧ RebuiltAs schema schema' := by
  have hplain := h.plain hl.nodup
  obtain ⟨types, hb⟩ := exists_builds h hl hk hlegible hw
  have htells := tellsOf h hl hk hlegible hw hb
  have hread := (h.retells hl hk).readBack hlegible hw
  have hlists := lists_readSchema hb hplain
  have hdirectives := shownDirectives_readSchema hb fun d' hd' => by
    obtain ⟨d, hd, rfl⟩ := List.mem_map.mp hd'
    exact (mem_shownDirectives.mp hd).2
  refine ⟨_, build_unchecked hplain hm hb ?_, ?_⟩
  · exact exists_printSchema hl hk hlists htells hdirectives hread
  · exact rebuiltAs hl hk hlists htells hdirectives hread hurl (root?_readSchema hb h hl htells)

/-- The text that a sound model is composed to is read as definitions of its schema. -/
theorem TypeSystem.Sound.definedBy (h : model.Sound) (hb : model.build.value = .ok schema)
    (hc : model.compose.value = .ok text) (name : String) (located : Bool) :
    ∃ document, parseDocument ⟨name, text⟩ located = .ok document
      ∧ DefinedBy schema document.definitions := by
  obtain ⟨annotated, ha, hp⟩ := exists_print hc
  obtain ⟨schema', hb', rfl⟩ := annotated_eq_ok.mp ha
  cases hb.symm.trans hb'
  obtain ⟨document, hr, hu⟩ := parseDocument_eq_ok (h.holds schema) (h.legible hb) hp name located
  exact ⟨document, hr, definedBy_unplaced (h.holds schema) hu⟩

/-- A composed text that is assembled alone, without validation, gives the schema again that it was
composed from, with the root types that are read of it. These are the same exactly if the text tells
them. -/
theorem compose_rebuilds (hp : ∀ d ∈ documents, ∀ x ∈ d.document.definitions, x.Proper)
    (hm : (assemble (some documents) strict skip).value = .ok model)
    (hb : model.build.value = .ok schema) (hc : model.compose.value = .ok text)
    (name : String) (located : Bool) (fileName : Option String) :
    ∃ document rebuilt schema', parseDocument ⟨name, text⟩ located = .ok document
      ∧ (assemble (some [⟨document, fileName⟩]) false).value = .ok rebuilt
      ∧ rebuilt.build.value = .ok schema' ∧ RebuiltAs schema schema'
      ∧ ((∀ operation, schema'.root? operation = schema.root? operation) ↔ TellsRoots schema) := by
  have hs := sound_assemble hp hm
  obtain ⟨document, hr, hdefined⟩ := hs.definedBy hb hc name located
  obtain ⟨added, types, -, hl, hk, hw⟩ := build_assembled hs hm hb
  have hdocs : ∀ d ∈ [NamedDocument.mk document fileName], ¬annotates d := by
    intro d hd
    cases List.mem_singleton.mp hd
    exact not_annotates_of_unextended hdefined.unextended
  have hone : definitionsOf [⟨document, fileName⟩] = document.definitions := by
    simp [definitionsOf]
  obtain ⟨rebuilt, hrebuilt⟩ := assemble_definitions_isOk hdocs
    (hone ▸ (hdefined.plain hl.nodup).notReserved) false
  have hdefines := assemble_definitions hdocs hrebuilt
  rw [hone] at hdefines
  obtain ⟨schema', hb', hrebuiltAs⟩ := exists_rebuilt hdefined hl hk (hs.legible hb) hw
    (unspecified_assembled hs hm hb) hdefines
  exact ⟨document, rebuilt, schema', hr, hrebuilt, hb', hrebuiltAs, hrebuiltAs.roots_iff⟩

end Recomposing

theorem compose_rebuilds_ledger : ∃ (model : TypeSystem) (schema : Schema) (text : String)
    (document : Document) (rebuilt : TypeSystem) (schema' : Schema),
    (assemble (some ledger)).value = .ok model ∧ model.build.value = .ok schema
      ∧ model.compose.value = .ok text ∧ parseDocument ⟨unnamedSource, text⟩ = .ok document
      ∧ (assemble (some [⟨document, none⟩]) false).value = .ok rebuilt
      ∧ rebuilt.build.value = .ok schema' ∧ RebuiltAs schema schema'
      ∧ ((∀ operation, schema'.root? operation = schema.root? operation) ↔ TellsRoots schema) := by
  obtain ⟨model, schema, text, hm, -, hb, hp, -, -⟩ := ledger_composes
  have hc : model.compose.value = .ok text := by rw [compose_of_build hb, hp, Except.mapError]
  obtain ⟨document, rebuilt, schema', hrest⟩ :=
    compose_rebuilds proper_ledger hm hb hc unnamedSource true none
  exact ⟨model, schema, text, document, rebuilt, schema', hm, hb, hc, hrest⟩

/-- A schema definition that leaves out an object with the conventional name of a root type. -/
def passedOver : List NamedDocument :=
  ["schema \x7b query: Query \x7d type Query \x7b a: Int \x7d type Mutation \x7b b: Int \x7d"].filterMap
    fun text => (parseDocument ⟨unnamedSource, text⟩ false).toOption.map (⟨·, none⟩)

/-- The composed text has no schema definition, so that the object becomes a root type. -/
theorem compose_adopts : ∃ (model : TypeSystem) (schema : Schema) (text : String)
    (document : Document) (rebuilt : TypeSystem) (schema' : Schema),
    (assemble (some passedOver)).value = .ok model ∧ model.build.value = .ok schema
      ∧ model.compose.value = .ok text ∧ parseDocument ⟨unnamedSource, text⟩ false = .ok document
      ∧ (assemble (some [⟨document, none⟩]) false).value = .ok rebuilt
      ∧ rebuilt.build.value = .ok schema'
      ∧ schema.root? .mutation = none ∧ schema'.root? .mutation = some "Mutation" := by
  have hk : (do
      let model ← (assemble (some passedOver)).value.toOption
      let schema ← model.build.value.toOption
      let text ← model.compose.value.toOption
      let document ← (parseDocument ⟨unnamedSource, text⟩ false).toOption
      let rebuilt ← (assemble (some [⟨document, none⟩]) false).value.toOption
      let schema' ← rebuilt.build.value.toOption
      return (schema.root? .mutation, schema'.root? .mutation)) = some (none, some "Mutation") := by
    decide +kernel
  obtain ⟨model, hm, hk⟩ := Option.bind_eq_some_iff.mp hk
  obtain ⟨schema, hb, hk⟩ := Option.bind_eq_some_iff.mp hk
  obtain ⟨text, hc, hk⟩ := Option.bind_eq_some_iff.mp hk
  obtain ⟨document, hr, hk⟩ := Option.bind_eq_some_iff.mp hk
  obtain ⟨rebuilt, hrebuilt, hk⟩ := Option.bind_eq_some_iff.mp hk
  obtain ⟨schema', hb', hk⟩ := Option.bind_eq_some_iff.mp hk
  obtain ⟨hroot, hroot'⟩ := Prod.mk.inj (Option.some.inj hk)
  exact ⟨model, schema, text, document, rebuilt, schema', Except.toOption_eq_some.mp hm,
    Except.toOption_eq_some.mp hb, Except.toOption_eq_some.mp hc, Except.toOption_eq_some.mp hr,
    Except.toOption_eq_some.mp hrebuilt, Except.toOption_eq_some.mp hb', hroot, hroot'⟩

end SdlAssembly.Model
