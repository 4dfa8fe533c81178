import SdlAssembly.Model.Assembly
import SdlAssembly.Proofs.Registry

/-!
# Assembly is a merge by first occurrence

What an assembled model holds, read off the documents in order without any state: a document with an
extension in it gives annotations only, any other gives its definitions. Main statement: an assembled
model is exactly that merge.
-/

namespace SdlAssembly.Model

open Grammar Documents Annotation Schemas

/-! ## The two kinds of documents -/

def isExtension : Definition → Bool
  | .schemaExtension _ | .typeExtension _ => true
  | .operation _ | .fragment _ | .schema _ | .directive _ | .type _ => false

/-- Whether an extension makes a document an annotation document. -/
def annotates (d : NamedDocument) : Bool := d.document.definitions.any isExtension

/-- The definitions of the documents without extensions. -/
def mergedDefinitions (documents : List NamedDocument) : List Definition :=
  (documents.filter fun d => !annotates d).flatMap (·.document.definitions)

/-- What each annotation document gives, one after the other. -/
def fromAnnotations {α : Type} (read : List Definition → List α)
    (documents : List NamedDocument) : List α :=
  (documents.filter annotates).flatMap fun d => read d.document.definitions

/-! ## Single definitions -/

def scalarDefinition? : Definition → Option TypeNode
  | .type node@⟨_, _, _, .scalar⟩ => some node
  | _ => none

def scalarExtension? : Definition → Option TypeNode
  | .typeExtension node@⟨_, _, _, .scalar⟩ => some node
  | _ => none

def enumExtension? : Definition → Option TypeNode
  | .typeExtension node@⟨_, _, _, .enum _⟩ => some node
  | _ => none

def objectExtension? : Definition → Option TypeNode
  | .typeExtension node@⟨_, _, _, .object _ _⟩ => some node
  | _ => none

def schemaExtension? : Definition → Option SchemaNode
  | .schemaExtension node => some node
  | _ => none

/-! ## What definitions give -/

/-- The scalars that are defined and not built in, with their descriptions. -/
def scalarEntries (definitions : List Definition) : List (String × Placeholder) :=
  ((definitions.filterMap scalarDefinition?).filter fun node => !isBuiltinScalar node.name).map
    fun node => (node.name, ⟨node.name, node.description.map (·.text)⟩)

/-- The text of the first `name` argument of the first directive of a name. -/
def annotated? (node : TypeNode) (directive : String) : Option String := do
  let first ← node.directives.find? fun d => d.name == directive
  let argument ← first.arguments.find? fun a => a.name == "name"
  match argument.value with
  | .string text _ => some text
  | _ => none

/-- The leaf types that are extended, those of scalars first. -/
def leafEntries (definitions : List Definition) : List (String × LeafType) :=
  (definitions.filterMap scalarExtension? ++ definitions.filterMap enumExtension?).map fun node =>
    (node.name, ⟨node.name, annotated? node "runtimeType", annotated? node "serializationType"⟩)

/-- The text of a key directive of the one shape that counts. -/
def usableKey? (directive : Directive) : Option String :=
  match directive.arguments with
  | [⟨"fields", .string text _, _⟩] => some text
  | _ => none

/-- All usable keys of the schema extensions. -/
def globalKeys (definitions : List Definition) : List String :=
  (definitions.filterMap schemaExtension?).flatMap fun node =>
    (node.directives.filter fun d => d.name == "key").filterMap usableKey?

/-- The first key of each extension of an object type, where it is usable. -/
def typeKeys (definitions : List Definition) : List (String × String) :=
  (definitions.filterMap objectExtension?).filterMap fun node => do
    let first ← node.directives.find? fun d => d.name == "key"
    return (node.name, ← usableKey? first)

/-! ## The merge -/

/-- What a list of documents adds to a model. -/
structure Absorbs (model : TypeSystem) (documents : List NamedDocument) (model' : TypeSystem) :
    Prop where
  definitions : model'.definitions = model.definitions ++ mergedDefinitions documents
  placeholders : model'.placeholders =
    model.placeholders.addAll (scalarEntries (mergedDefinitions documents))
  leafTypes : model'.leafTypes = model.leafTypes.addAll (fromAnnotations leafEntries documents)
  globals : model'.entityPatterns.globals.map Except.ok =
    model.entityPatterns.globals.map Except.ok
      ++ (fromAnnotations globalKeys documents).map parseSelectionSet
  types : ∃ sets : List (String × SelectionSet),
    sets.map (fun entry => (entry.1, Except.ok entry.2)) =
        (fromAnnotations typeKeys documents).map (fun entry => (entry.1, parseSelectionSet entry.2))
      ∧ model'.entityPatterns.types = model.entityPatterns.types.addAll sets
  strict : model'.strict = model.strict

/-- The merge of documents: every field of a model, given by the documents alone. -/
structure IsMerge (documents : List NamedDocument) (strict : Bool) (model : TypeSystem) : Prop where
  definitions : model.definitions = mergedDefinitions documents
  placeholders : model.placeholders.toList =
    Registry.firstOfEach (scalarEntries (mergedDefinitions documents))
  leafTypes : model.leafTypes.toList =
    Registry.firstOfEach (fromAnnotations leafEntries documents)
      ++ (defaultLeafTypes.map DefaultLeafType.entry).filter fun entry =>
        !(fromAnnotations leafEntries documents).any fun leaf => leaf.1 == entry.1
  globals : model.entityPatterns.globals.map Except.ok =
    (fromAnnotations globalKeys documents).map parseSelectionSet
  types : model.entityPatterns.types.toList.map (fun entry => (entry.1, Except.ok entry.2)) =
    (Registry.firstOfEach (fromAnnotations typeKeys documents)).map fun entry =>
      (entry.1, parseSelectionSet entry.2)
  strict : model.strict = strict

/-! ## Definitions by role -/

theorem annotates_iff {d : NamedDocument} :
    annotates d ↔ DocumentKind.ofDocument d.document = .annotations := by
  have he : isExtension = fun x => (DefinitionRole.ofDefinition x).isExtension := by
    funext x
    cases x with
    | typeExtension node => obtain ⟨_, _, _, body⟩ := node; cases body <;> rfl
    | type node => obtain ⟨_, _, _, body⟩ := node; cases body <;> rfl
    | _ => rfl
  rw [annotates, DocumentKind.ofDocument, he]
  split <;> simp_all

/-- The type node of a definition, if the definition has a role. -/
def inRole? (role : DefinitionRole) (x : Definition) : Option TypeNode :=
  if DefinitionRole.ofDefinition x == role then
    match x with
    | .type node | .typeExtension node => some node
    | _ => none
  else none

theorem inRole?_eq (x : Definition) :
    inRole? .scalarDefinition x = scalarDefinition? x
      ∧ inRole? .scalarExtension x = scalarExtension? x
      ∧ inRole? .enumExtension x = enumExtension? x
      ∧ inRole? .objectExtension x = objectExtension? x := by
  cases x with
  | typeExtension node =>
      obtain ⟨_, _, _, body⟩ := node
      cases body <;> exact ⟨rfl, rfl, rfl, rfl⟩
  | type node =>
      obtain ⟨_, _, _, body⟩ := node
      cases body <;> exact ⟨rfl, rfl, rfl, rfl⟩
  | _ => exact ⟨rfl, rfl, rfl, rfl⟩

theorem typesIn_eq {role : DefinitionRole} {read : Definition → Option TypeNode}
    (h : ∀ x, inRole? role x = read x) (document : Document) :
    typesIn role document = document.definitions.filterMap read := by
  rw [← funext h]
  rfl

theorem leafExtensions_eq (document : Document) :
    leafExtensions document = document.definitions.filterMap scalarExtension?
      ++ document.definitions.filterMap enumExtension? := by
  rw [leafExtensions, typesIn_eq (fun x => (inRole?_eq x).2.1),
    typesIn_eq (fun x => (inRole?_eq x).2.2.1)]

theorem schemaExtensions_eq (document : Document) :
    schemaExtensions document = document.definitions.filterMap schemaExtension? := by
  have h : ∀ x : Definition,
      (match x with | .schemaExtension node => some node | _ => none) = schemaExtension? x := by
    intro x
    cases x <;> rfl
  rw [← funext h]
  rfl

/-! ## Placeholders -/

theorem registerPlaceholder_value (placeholders : Placeholders) (node : TypeNode) :
    (registerPlaceholder placeholders node).value =
      placeholders.tryAdd node.name (Placeholder.ofDefinition node) := by
  unfold registerPlaceholder Registry.tryAdd
  by_cases h : node.name ∈ placeholders.keys <;> simp [Registry.contains, h]

theorem registerScalars_ok {nodes : List TypeNode} {placeholders placeholders' : Placeholders}
    (h : (registerScalars nodes placeholders).value = (placeholders', none)) :
    placeholders' = placeholders.addAll
      ((nodes.filter fun node => !isBuiltinScalar node.name).map fun node =>
        (node.name, Placeholder.ofDefinition node)) := by
  induction nodes generalizing placeholders with
  | nil => simp_all [registerScalars]
  | cons node rest ih =>
      unfold registerScalars at h
      split at h
      · rename_i hb
        simpa [hb] using ih h
      · rename_i hb
        split at h
        · simp at h
        · rw [Logged.value_andThen, registerPlaceholder_value] at h
          simpa [hb] using ih h

/-! ## Leaf types -/

theorem registerLeafType_value (registry : LeafTypes) (node : TypeNode) :
    (registerLeafType registry node).value =
      registry.tryAdd node.name (LeafType.ofExtension node) := by
  unfold registerLeafType Registry.tryAdd
  by_cases h : node.name ∈ registry.keys <;> simp [Registry.contains, h]

theorem foldl_andThen_value {α β : Type} (step : α → β → Logged α) (items : List β)
    (t : Logged α) :
    (items.foldl (fun t item => t.andThen (step · item)) t).value =
      items.foldl (fun a item => (step a item).value) t.value := by
  induction items generalizing t with
  | nil => rfl
  | cons item rest ih => simp [ih]

theorem annotated?_eq (node : TypeNode) (directive : String) :
    directiveValue? node.directives directive = annotated? node directive := by
  rw [directiveValue?, firstDirective?, annotated?]
  refine congrArg (Option.bind _) (funext fun first => ?_)
  rw [stringArgument?, argument?, nameArgument, Option.bind_map]
  rfl

theorem collectLeafTypes_value (registry : LeafTypes) (document : Document) :
    (collectLeafTypes registry document).value =
      registry.addAll (leafEntries document.definitions) := by
  rw [collectLeafTypes, foldl_andThen_value, leafExtensions_eq, leafEntries, Registry.addAll,
    List.foldl_map]
  simp only [registerLeafType_value, LeafType.ofExtension, annotated?_eq,
    runtimeTypeDirective, serializationTypeDirective]

/-! ## Keys -/

/-- The text of a key that is for every type. -/
def ConsultedKey.global? (key : ConsultedKey) : Option String :=
  match key.scope with
  | .schema => key.fields
  | .type _ => none

/-- The text of a key that is for one type, with the name of the type. -/
def ConsultedKey.typed? (key : ConsultedKey) : Option (String × String) :=
  match key.scope with
  | .schema => none
  | .type name => key.fields.map (name, ·)

/-- Patterns that are the others with keys collected after them. -/
structure CollectsKeys (patterns : EntityPatterns) (globals : List String)
    (types : List (String × String)) (patterns' : EntityPatterns) : Prop where
  globals : patterns'.globals.map Except.ok =
    patterns.globals.map Except.ok ++ globals.map parseSelectionSet
  types : ∃ sets : List (String × SelectionSet),
    sets.map (fun entry => (entry.1, Except.ok entry.2)) =
        types.map (fun key => (key.1, parseSelectionSet key.2))
      ∧ patterns'.types = patterns.types.addAll sets

theorem parseKey_ok {fields scope : String} {fileName : Option String} {set : SelectionSet} :
    parseKey fields scope fileName = .ok set ↔ parseSelectionSet fields = .ok set := by
  unfold parseKey
  split <;> simp_all

theorem collectKeys_ok {fileName : Option String} {keys : List ConsultedKey}
    {patterns patterns' : EntityPatterns}
    (h : (collectKeys fileName keys patterns).value = (patterns', none)) :
    CollectsKeys patterns (keys.filterMap ConsultedKey.global?)
      (keys.filterMap ConsultedKey.typed?) patterns' := by
  induction keys generalizing patterns with
  | nil =>
      obtain rfl : patterns = patterns' := congrArg Prod.fst h
      exact ⟨by simp, [], rfl, rfl⟩
  | cons key rest ih =>
      obtain ⟨scope, fields⟩ := key
      unfold collectKeys at h
      cases fields with
      | none =>
          simp only [Logged.value_andThen, noteUnusable_value] at h
          cases scope <;> exact ih h
      | some fields =>
          cases hp : parseKey fields scope.text fileName with
          | error failure => simp [hp] at h
          | ok set =>
              simp only [hp, Logged.value_andThen, Logged.value_note] at h
              have hk := parseKey_ok.mp hp
              obtain ⟨hg, sets, hs, ht⟩ := ih h
              cases scope with
              | schema =>
                  refine ⟨?_, sets, hs, ht⟩
                  simpa [EntityPatterns.add, ConsultedKey.global?, hk] using hg
              | type name =>
                  refine ⟨hg, (name, set) :: sets, ?_, ht⟩
                  simpa [ConsultedKey.typed?, hk] using hs

theorem usableKey?_eq (directive : Directive) : keyFields? directive = usableKey? directive := by
  obtain ⟨_, arguments, _⟩ := directive
  match arguments with
  | [] => rfl
  | _ :: _ :: _ => simp [keyFields?, usableKey?]
  | [⟨name, value, _⟩] =>
      by_cases hn : name = "fields"
      · subst hn
        cases value <;> rfl
      · simp only [keyFields?, keyArgument, beq_iff_eq, hn, ↓reduceIte, usableKey?]
        split <;> simp_all

theorem global?_consultedKeys (document : Document) :
    (consultedKeys document).filterMap ConsultedKey.global? =
      globalKeys document.definitions := by
  have ht : ∀ node, (typeKey? node).bind ConsultedKey.global? = none := by
    intro node
    unfold typeKey?
    cases firstDirective? node.directives keyDirective <;> rfl
  have hs : ∀ node : SchemaNode, (schemaKeys node).filterMap ConsultedKey.global? =
      (node.directives.filter fun d => d.name == "key").filterMap usableKey? := by
    intro node
    simp only [schemaKeys, List.filterMap_map, Function.comp_def, usableKey?_eq]
    rfl
  simp [consultedKeys, schemaExtensions_eq, globalKeys, List.filterMap_flatMap, hs, ht,
    List.filterMap_filterMap]

theorem typed?_consultedKeys (document : Document) :
    (consultedKeys document).filterMap ConsultedKey.typed? = typeKeys document.definitions := by
  have hs : ∀ node : SchemaNode, (schemaKeys node).filterMap ConsultedKey.typed? = [] := by
    intro node
    simp [schemaKeys, List.filterMap_map, Function.comp_def, ConsultedKey.typed?]
  have ht : ∀ node : TypeNode, (typeKey? node).bind ConsultedKey.typed? =
      ((node.directives.find? fun d => d.name == "key").bind fun first =>
        (usableKey? first).bind fun text => some (node.name, text)) := by
    intro node
    unfold typeKey? firstDirective? keyDirective
    cases node.directives.find? fun d => d.name == "key" with
    | none => rfl
    | some first =>
        rw [Option.map_some, Option.bind_some, Option.bind_some, usableKey?_eq]
        cases usableKey? first <;> rfl
  have hn : (schemaExtensions document).flatMap (fun _ => ([] : List (String × String))) = [] := by
    simp
  rw [consultedKeys, typesIn_eq (fun x => (inRole?_eq x).2.2.2), List.filterMap_append,
    List.filterMap_flatMap, funext hs, hn, List.nil_append, List.filterMap_filterMap, funext ht]
  rfl

/-! ## Steps and runs -/

theorem mergedDefinitions_cons (d : NamedDocument) (rest : List NamedDocument) :
    mergedDefinitions (d :: rest) =
      (if annotates d then [] else d.document.definitions) ++ mergedDefinitions rest := by
  unfold mergedDefinitions
  by_cases h : annotates d <;> simp [h]

theorem fromAnnotations_cons {β : Type} (read : List Definition → List β) (d : NamedDocument)
    (rest : List NamedDocument) :
    fromAnnotations read (d :: rest) =
      (if annotates d then read d.document.definitions else []) ++ fromAnnotations read rest := by
  unfold fromAnnotations
  by_cases h : annotates d <;> simp [h]

theorem scalarEntries_append (xs ys : List Definition) :
    scalarEntries (xs ++ ys) = scalarEntries xs ++ scalarEntries ys := by
  simp [scalarEntries]

theorem Absorbs.nil (model : TypeSystem) : Absorbs model [] model :=
  ⟨by simp [mergedDefinitions], rfl, rfl, by simp [fromAnnotations], ⟨[], rfl, rfl⟩, rfl⟩

theorem Absorbs.cons {model middle model' : TypeSystem} {d : NamedDocument}
    {rest : List NamedDocument} (h : Absorbs model [d] middle) (hr : Absorbs middle rest model') :
    Absorbs model (d :: rest) model' := by
  have hm := mergedDefinitions_cons d rest
  have hm' := mergedDefinitions_cons d []
  obtain ⟨sets, hs, ht⟩ := h.types
  obtain ⟨sets', hs', ht'⟩ := hr.types
  refine ⟨?_, ?_, ?_, ?_, ⟨sets ++ sets', ?_, ?_⟩, hr.strict.trans h.strict⟩
  · rw [hr.definitions, h.definitions, hm, hm', List.append_assoc]
    simp [mergedDefinitions]
  · rw [hr.placeholders, h.placeholders, hm, hm', scalarEntries_append, scalarEntries_append,
      Registry.addAll_append, Registry.addAll_append]
    rfl
  · rw [hr.leafTypes, h.leafTypes, fromAnnotations_cons, fromAnnotations_cons _ d rest,
      Registry.addAll_append]
    simp [fromAnnotations]
  · rw [hr.globals, h.globals, fromAnnotations_cons, fromAnnotations_cons _ d rest]
    simp [fromAnnotations]
  · rw [List.map_append, hs, hs', fromAnnotations_cons, fromAnnotations_cons _ d rest]
    simp [fromAnnotations]
  · rw [ht', ht, Registry.addAll_append]

theorem annotate_absorbs {model model' : TypeSystem} {d : NamedDocument} (ha : annotates d)
    (h : (model.annotate d).value = (model', none)) : Absorbs model [d] model' := by
  simp only [TypeSystem.annotate, TypeSystem.addLeafTypes, TypeSystem.addEntityPatterns,
    Bool.false_eq_true, ↓reduceIte, Logged.value_andThen, Logged.value_map,
    Prod.mk.injEq, Option.map_eq_none_iff] at h
  obtain ⟨rfl, hf⟩ := h
  unfold collectEntityPatterns at hf ⊢
  obtain ⟨hg, hs⟩ := collectKeys_ok (Prod.ext rfl hf)
  rw [global?_consultedKeys] at hg
  rw [typed?_consultedKeys] at hs
  refine ⟨?_, ?_, ?_, ?_, ?_, rfl⟩
  · simp [mergedDefinitions, ha]
  · simp [mergedDefinitions, ha, scalarEntries]
  · simp [fromAnnotations, ha, collectLeafTypes_value]
  · simpa [fromAnnotations, ha] using hg
  · simpa [fromAnnotations, ha] using hs

theorem define_absorbs {model model' : TypeSystem} {d : NamedDocument} (ha : ¬annotates d)
    (h : (model.define d.document).value = (model', none)) : Absorbs model [d] model' := by
  simp only [TypeSystem.define, TypeSystem.addPlaceholders, Logged.value_map] at h
  cases hc : (collectPlaceholders model.placeholders d.document).value with
  | mk placeholders failure =>
      cases failure with
      | some failure => simp [hc] at h
      | none =>
          simp only [hc, Option.map_none, Prod.mk.injEq, and_true] at h
          subst h
          have hp := registerScalars_ok hc
          rw [typesIn_eq fun x => (inRole?_eq x).1] at hp
          refine ⟨?_, ?_, ?_, ?_, ⟨[], ?_, ?_⟩, rfl⟩
          · simp [mergedDefinitions, ha, TypeSystem.addDefinitions]
          · simpa [mergedDefinitions, ha, TypeSystem.addDefinitions, scalarEntries,
              Placeholder.ofDefinition] using hp
          · simp [fromAnnotations, ha, TypeSystem.addDefinitions]
          · simp [fromAnnotations, ha, TypeSystem.addDefinitions]
          · simp [fromAnnotations, ha]
          · simp [TypeSystem.addDefinitions]

/-- What one document adds. -/
theorem add_absorbs {model model' : TypeSystem} {d : NamedDocument}
    (h : (model.add false d).value = (model', none)) : Absorbs model [d] model' := by
  simp only [TypeSystem.add, Logged.value_andThen] at h
  cases hk : DocumentKind.ofDocument d.document with
  | annotations => exact annotate_absorbs (annotates_iff.mpr hk) (by simpa [hk] using h)
  | definitions =>
      refine define_absorbs (fun ha => ?_) (by simpa [hk] using h)
      rw [annotates_iff.mp ha] at hk
      cases hk

/-- What all documents add. -/
theorem addAll_absorbs {documents : List NamedDocument} {model model' : TypeSystem}
    (h : (TypeSystem.addAll false model documents).value = (model', none)) :
    Absorbs model documents model' := by
  induction documents generalizing model with
  | nil =>
      obtain rfl : model = model' := congrArg Prod.fst h
      exact .nil model
  | cons d rest ih =>
      unfold TypeSystem.addAll at h
      cases hd : (model.add false d).value with
      | mk middle failure =>
          cases failure with
          | some failure => simp [hd] at h
          | none => exact (add_absorbs hd).cons (ih (by simpa [hd] using h))

/-! ## The merge -/

theorem addDefaults_value (model : TypeSystem) :
    model.addDefaults.value =
      { model with leafTypes :=
          model.leafTypes.addAll (defaultLeafTypes.map DefaultLeafType.entry) } := by
  simp only [TypeSystem.addDefaults, Logged.value_map, addDefaultLeafTypes, Logged.value_note,
    Registry.addAll]

theorem firstOfEach_defaults :
    Registry.firstOfEach (defaultLeafTypes.map DefaultLeafType.entry) =
      defaultLeafTypes.map DefaultLeafType.entry := by
  decide

/-- Keeping first pairs commutes with a map that keeps the keys. -/
theorem firstOfEach_map {α β : Type} (f : α → β) (pairs : List (String × α)) :
    Registry.firstOfEach (pairs.map fun pair => (pair.1, f pair.2)) =
      (Registry.firstOfEach pairs).map fun pair => (pair.1, f pair.2) := by
  induction pairs with
  | nil => rfl
  | cons pair rest ih =>
      simp only [List.map_cons, Registry.firstOfEach, ih, List.filter_map, Function.comp_def]

theorem assemble_isMerge {documents : List NamedDocument} {strict : Bool} {model : TypeSystem}
    (h : (assemble (some documents) strict false).value = .ok model) :
    IsMerge documents strict model := by
  unfold assemble at h
  cases ha : (TypeSystem.addAll false { strict := strict } documents).value with
  | mk merged failure =>
      cases failure with
      | some failure => simp [ha] at h
      | none =>
          simp only [Logged.value_andThen, ha, Logged.value_note, Except.ok.injEq] at h
          rw [addDefaults_value] at h
          subst h
          have hm := addAll_absorbs ha
          obtain ⟨sets, hs, ht⟩ := hm.types
          refine ⟨?_, ?_, ?_, ?_, ?_, hm.strict⟩
          · simpa using hm.definitions
          · rw [hm.placeholders, Registry.toList_addAll_empty]
          · have hc := Registry.contains_addAll_empty
              (fromAnnotations leafEntries documents)
            rw [hm.leafTypes, Registry.toList_addAll, Registry.toList_addAll_empty,
              firstOfEach_defaults, Registry.fresh, funext hc]
          · simpa using hm.globals
          · rw [ht, Registry.toList_addAll_empty, ← firstOfEach_map, ← firstOfEach_map, hs]

/-- A scalar definition, then extensions with a key that name the scalar twice. -/
def overlaid : List NamedDocument :=
  [⟨⟨[.type ⟨none, "Money", [], .scalar⟩], none⟩, none⟩,
    ⟨⟨[.schemaExtension ⟨none, [⟨"key", [⟨"fields", .string "id" false, none⟩], none⟩], []⟩,
      .typeExtension ⟨none, "Unit", [], .enum []⟩,
      .typeExtension ⟨none, "Money",
        [⟨"runtimeType", [⟨"name", .string "Decimal" false, none⟩], none⟩], .scalar⟩,
      .typeExtension ⟨none, "Money", [], .scalar⟩], none⟩, none⟩]

theorem assemble_isMerge_overlaid :
    ∃ model, (assemble (some overlaid) true false).value = .ok model
      ∧ IsMerge overlaid true model := by
  cases h : (assemble (some overlaid) true false).value with
  | ok model => exact ⟨model, rfl, assemble_isMerge h⟩
  | error failure =>
      have hk : (assemble (some overlaid) true false).value.isOk = true := by decide +kernel
      rw [h] at hk
      cases hk

end SdlAssembly.Model
