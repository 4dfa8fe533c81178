import SdlAssembly.Proofs.Stopping
import SdlAssembly.Proofs.TwoHalves

/-!
# What is settled stays

Documents add to three registries what each of them gives on its own, and a registry keeps the first
entry of each name. So documents that follow only append annotated leaf types and take names from
the defaults, and a document that is read again, wherever it stands, adds nothing.
-/

namespace SdlAssembly.Model

open Grammar Documents Annotation Schemas

/-! ## What a document gives -/

/-- The leaf types that a document annotates. -/
def leafPairs (d : NamedDocument) : List (String × LeafType) :=
  if annotates d then leafEntries d.document.definitions else []

/-- The patterns of object types that a document annotates, where keys are read. -/
def patternPairs (skip : Bool) (d : NamedDocument) : List (String × SelectionSet) :=
  if annotates d && !skip then
    (typeKeys d.document.definitions).filterMap fun key =>
      (parseSelectionSet key.2).toOption.map (key.1, ·)
  else []

/-- The placeholders of the scalars that a document defines. -/
def placeholderPairs (d : NamedDocument) : List (String × Placeholder) :=
  if annotates d then [] else scalarEntries d.document.definitions

/-- What documents add to the registries of a model. -/
structure Registers (skip : Bool) (documents : List NamedDocument) (model model' : TypeSystem) :
    Prop where
  leafTypes : model'.leafTypes = model.leafTypes.addAll (documents.flatMap leafPairs)
  patterns : model'.entityPatterns.types =
    model.entityPatterns.types.addAll (documents.flatMap (patternPairs skip))
  placeholders : model'.placeholders =
    model.placeholders.addAll (documents.flatMap placeholderPairs)

/-- Sets that were read from keys are those that reading the keys gives. -/
theorem filterMap_parse {keys : List (String × String)} {sets : List (String × SelectionSet)}
    (h : sets.map (fun entry => (entry.1, Except.ok entry.2)) =
      keys.map fun key => (key.1, parseSelectionSet key.2)) :
    (keys.filterMap fun key => (parseSelectionSet key.2).toOption.map (key.1, ·)) = sets := by
  have hkeys : (keys.filterMap fun key => (parseSelectionSet key.2).toOption.map (key.1, ·)) =
      (keys.map fun key => (key.1, parseSelectionSet key.2)).filterMap
        fun read => read.2.toOption.map (read.1, ·) := by
    rw [List.filterMap_map]
    rfl
  rw [hkeys, ← h, List.filterMap_map]
  exact List.filterMap_some

theorem collectEntityPatterns_types {patterns patterns' : EntityPatterns} {d : NamedDocument}
    (ha : annotates d) (h : TakesKeys false patterns [d.document] patterns') :
    patterns'.types = patterns.types.addAll (patternPairs false d) := by
  have hcollects := collectKeys_ok (takesKeys_single.mp h)
  rw [typed?_consultedKeys] at hcollects
  obtain ⟨sets, hsets, htypes⟩ := hcollects.types
  rw [htypes, patternPairs, ha, Bool.not_false, Bool.and_true, if_pos rfl, filterMap_parse hsets]

theorem collectPlaceholders_eq {placeholders placeholders' : Placeholders} {d : NamedDocument}
    (ha : ¬annotates d)
    (h : (collectPlaceholders placeholders d.document).value = (placeholders', none)) :
    placeholders' = placeholders.addAll (placeholderPairs d) := by
  have hp := registerScalars_ok h
  rw [typesIn_eq fun x => (inRole?_eq x).1] at hp
  rw [hp, placeholderPairs, if_neg ha]
  rfl

section Steps

variable {skip : Bool} {model model' : TypeSystem} {d : NamedDocument}
  {documents : List NamedDocument}

theorem Registers.single (h : (model.add skip d).value = (model', none)) :
    Registers skip [d] model model' := by
  by_cases ha : annotates d
  · obtain ⟨patterns, hkeys, rfl⟩ := (add_annotations ha).mp h
    constructor
    · simp [leafPairs, ha, collectLeafTypes_value]
    · cases skip with
      | true =>
          obtain rfl : patterns = model.entityPatterns := hkeys
          simp [patternPairs]
      | false => simpa using collectEntityPatterns_types ha hkeys
    · simp [placeholderPairs, ha]
  · obtain ⟨placeholders, hscalars, rfl⟩ := (add_definitions ha).mp h
    constructor
    · simp [leafPairs, ha]
    · simp [patternPairs, ha]
    · simpa using collectPlaceholders_eq ha hscalars

theorem Registers.cons {middle : TypeSystem} (h : Registers skip [d] model middle)
    (hr : Registers skip documents middle model') :
    Registers skip (d :: documents) model model' := by
  constructor
  · rw [hr.leafTypes, h.leafTypes]
    simp
  · rw [hr.patterns, h.patterns]
    simp
  · rw [hr.placeholders, h.placeholders]
    simp

theorem addAll_registers (h : (TypeSystem.addAll skip model documents).value = (model', none)) :
    Registers skip documents model model' := by
  induction documents generalizing model with
  | nil =>
      obtain rfl : model = model' := congrArg Prod.fst h
      exact ⟨rfl, rfl, rfl⟩
  | cons d rest ih =>
      obtain ⟨middle, hd, hrest⟩ := addAll_cons.mp h
      exact (Registers.single hd).cons (ih hrest)

end Steps

/-- The registries of an assembled model: what all documents give, and the defaults after it. -/
theorem assemble_registers {documents : List NamedDocument} {strict skip : Bool}
    {model : TypeSystem} (h : (assemble (some documents) strict skip).value = .ok model) :
    model.leafTypes = (({} : LeafTypes).addAll (documents.flatMap leafPairs)).addAll
        (defaultLeafTypes.map DefaultLeafType.entry)
      ∧ model.entityPatterns.types =
        ({} : Registry SelectionSet).addAll (documents.flatMap (patternPairs skip))
      ∧ model.placeholders = ({} : Placeholders).addAll (documents.flatMap placeholderPairs) := by
  obtain ⟨merged, hm, rfl⟩ := assemble_eq_ok.mp h
  obtain ⟨hleaf, hpatterns, hplaceholders⟩ := addAll_registers (addAll_eq_none.mpr hm)
  rw [addDefaults_value]
  exact ⟨by rw [hleaf], hpatterns, hplaceholders⟩

/-! ## Annotated names -/

/-- Whether an annotation document extends a scalar or an enum of a name. -/
def AnnotatesLeaf (documents : List NamedDocument) (name : String) : Prop :=
  ∃ d ∈ documents, ∃ node, .typeExtension node ∈ d.document.definitions ∧ node.name = name
    ∧ (node.body = .scalar ∨ ∃ values, node.body = .enum values)

theorem scalarExtension?_eq_some {x : Definition} {node : TypeNode} :
    scalarExtension? x = some node ↔ x = .typeExtension node ∧ node.body = .scalar := by
  constructor
  · intro h
    unfold scalarExtension? at h
    split at h
    · cases h
      exact ⟨rfl, rfl⟩
    · cases h
  · obtain ⟨_, _, _, _⟩ := node
    rintro ⟨rfl, rfl⟩
    rfl

theorem enumExtension?_eq_some {x : Definition} {node : TypeNode} :
    enumExtension? x = some node ↔
      x = .typeExtension node ∧ ∃ values, node.body = .enum values := by
  constructor
  · intro h
    unfold enumExtension? at h
    split at h
    · cases h
      exact ⟨rfl, _, rfl⟩
    · cases h
  · obtain ⟨_, _, _, _⟩ := node
    rintro ⟨rfl, _, rfl⟩
    rfl

theorem annotates_of_typeExtension {d : NamedDocument} {node : TypeNode}
    (h : .typeExtension node ∈ d.document.definitions) : annotates d :=
  List.any_eq_true.mpr ⟨_, h, rfl⟩

theorem annotatesLeaf_iff {documents : List NamedDocument} {name : String} :
    AnnotatesLeaf documents name ↔ ∃ pair ∈ documents.flatMap leafPairs, pair.1 = name := by
  constructor
  · rintro ⟨d, hd, node, hnode, rfl, hbody⟩
    have hleaf : node ∈ d.document.definitions.filterMap scalarExtension?
        ++ d.document.definitions.filterMap enumExtension? := by
      simp only [List.mem_append, List.mem_filterMap, scalarExtension?_eq_some,
        enumExtension?_eq_some]
      exact hbody.imp (fun hb => ⟨_, hnode, rfl, hb⟩) fun hb => ⟨_, hnode, rfl, hb⟩
    have hpair : (node.name, LeafType.mk node.name (annotated? node "runtimeType")
        (annotated? node "serializationType")) ∈ leafPairs d := by
      rw [leafPairs, if_pos (annotates_of_typeExtension hnode)]
      exact List.mem_map.mpr ⟨node, hleaf, rfl⟩
    exact ⟨_, List.mem_flatMap.mpr ⟨d, hd, hpair⟩, rfl⟩
  · rintro ⟨pair, hpair, rfl⟩
    obtain ⟨d, hd, hpair⟩ := List.mem_flatMap.mp hpair
    unfold leafPairs at hpair
    split at hpair
    · obtain ⟨node, hleaf, rfl⟩ := List.mem_map.mp hpair
      simp only [List.mem_append, List.mem_filterMap, scalarExtension?_eq_some,
        enumExtension?_eq_some] at hleaf
      obtain ⟨_, hx, rfl, hbody⟩ | ⟨_, hx, rfl, hbody⟩ := hleaf
      · exact ⟨d, hd, node, hx, rfl, .inl hbody⟩
      · exact ⟨d, hd, node, hx, rfl, .inr hbody⟩
    · cases hpair

/-- A name is taken by the leaf types of documents where they annotate it. -/
theorem contains_leafPairs {documents : List NamedDocument} {name : String} :
    (({} : LeafTypes).addAll (documents.flatMap leafPairs)).contains name ↔
      AnnotatesLeaf documents name := by
  rw [Registry.contains_addAll_empty, annotatesLeaf_iff, List.any_eq_true]
  simp only [beq_iff_eq]

instance (documents : List NamedDocument) (name : String) :
    Decidable (AnnotatesLeaf documents name) := decidable_of_iff _ contains_leafPairs

theorem annotatesLeaf_append {xs ys : List NamedDocument} {name : String} :
    AnnotatesLeaf (xs ++ ys) name ↔ AnnotatesLeaf xs name ∨ AnnotatesLeaf ys name := by
  simp only [AnnotatesLeaf, List.mem_append, or_and_right, exists_or]

/-! ## Documents that follow -/

/-- The defaults whose names no document annotates. -/
def freeDefaults (documents : List NamedDocument) : List (String × LeafType) :=
  (defaultLeafTypes.map DefaultLeafType.entry).filter fun entry =>
    !decide (AnnotatesLeaf documents entry.1)

theorem mem_freeDefaults {documents : List NamedDocument} {entry : String × LeafType} :
    entry ∈ freeDefaults documents ↔ entry ∈ defaultLeafTypes.map DefaultLeafType.entry
      ∧ ¬AnnotatesLeaf documents entry.1 := by
  simp [freeDefaults]

theorem freeDefaults_append (xs ys : List NamedDocument) :
    freeDefaults (xs ++ ys) =
      (freeDefaults xs).filter fun entry => !decide (AnnotatesLeaf ys entry.1) := by
  rw [freeDefaults, freeDefaults, List.filter_filter]
  apply List.filter_congr
  intro entry _
  simp [annotatesLeaf_append, Bool.and_comm]

theorem assemble_leafTypes {documents : List NamedDocument} {strict skip : Bool}
    {model : TypeSystem} (h : (assemble (some documents) strict skip).value = .ok model) :
    model.leafTypes.toList = (({} : LeafTypes).addAll (documents.flatMap leafPairs)).toList
      ++ freeDefaults documents := by
  have hfresh : Registry.fresh (({} : LeafTypes).addAll (documents.flatMap leafPairs))
      (defaultLeafTypes.map DefaultLeafType.entry) = freeDefaults documents := by
    apply List.filter_congr
    intro entry _
    rw [Bool.eq_iff_iff, Bool.not_eq_true', Bool.not_eq_true', decide_eq_false_iff_not,
      ← contains_leafPairs, Bool.not_eq_true]
  rw [(assemble_registers h).1, Registry.toList_addAll, firstOfEach_defaults, hfresh]

/-- What is left of the leaf types of documents when others follow them. -/
theorem leafTypes_append (xs ys : List NamedDocument) : ∃ added,
    (({} : LeafTypes).addAll ((xs ++ ys).flatMap leafPairs)).toList =
        (({} : LeafTypes).addAll (xs.flatMap leafPairs)).toList ++ added
      ∧ ∀ entry ∈ added, AnnotatesLeaf ys entry.1 ∧ ¬AnnotatesLeaf xs entry.1 := by
  refine ⟨_, by rw [List.flatMap_append, Registry.addAll_append, Registry.toList_addAll], ?_⟩
  intro entry hentry
  obtain ⟨hfirst, hnew⟩ := List.mem_filter.mp hentry
  refine ⟨annotatesLeaf_iff.mpr ⟨entry, Registry.mem_of_mem_firstOfEach hfirst, rfl⟩, ?_⟩
  rw [← contains_leafPairs]
  simpa using hnew

/-! ## Copies -/

/-- Documents with copies of them inserted, each somewhere after its original. The name of a copy
may be another. -/
inductive Repeats (documents : List NamedDocument) : List NamedDocument → Prop
  | none : Repeats documents documents
  | copy {before after : List NamedDocument} {original again : NamedDocument}
      (rest : Repeats documents (before ++ after)) (read : original ∈ before)
      (same : again.document.definitions = original.document.definitions) :
      Repeats documents (before ++ again :: after)

section Copies

variable {xs zs : List NamedDocument}

/-- Copies add nothing to a registry that each document gives pairs to by its definitions. -/
theorem Repeats.addAll_eq {α : Type} {pairs : NamedDocument → List (String × α)}
    (hpairs : ∀ d d' : NamedDocument, d.document.definitions = d'.document.definitions →
      pairs d = pairs d')
    (h : Repeats xs zs) (registry : Registry α) :
    registry.addAll (zs.flatMap pairs) = registry.addAll (xs.flatMap pairs) := by
  induction h with
  | none => rfl
  | @copy before after original again _ read same ih =>
      -- the original stands before the copy and has taken all of its names
      have htaken : ∀ pair ∈ pairs again,
          (registry.addAll (before.flatMap pairs)).contains pair.1 := by
        intro pair hpair
        rw [hpairs again original same] at hpair
        exact Registry.contains_addAll_of_mem (List.mem_flatMap.mpr ⟨original, read, hpair⟩)
      rw [← ih, List.flatMap_append, List.flatMap_cons, List.flatMap_append,
        Registry.addAll_append, Registry.addAll_append, Registry.addAll_append,
        Registry.addAll_of_contains htaken]

theorem Repeats.exists_original (h : Repeats xs zs) {again : NamedDocument} (hm : again ∈ zs) :
    ∃ original ∈ xs, again.document.definitions = original.document.definitions := by
  induction h generalizing again with
  | none => exact ⟨again, hm, rfl⟩
  | @copy before after original copied _ read same ih =>
      rcases List.mem_append.mp hm with hb | hc
      · exact ih (List.mem_append_left _ hb)
      · rcases List.mem_cons.mp hc with rfl | ha
        · obtain ⟨first, hfirst, he⟩ := ih (List.mem_append_left _ read)
          exact ⟨first, hfirst, same.trans he⟩
        · exact ih (List.mem_append_right _ ha)

variable {d d' : NamedDocument} (same : d.document.definitions = d'.document.definitions)

include same

theorem annotates_congr : annotates d = annotates d' := by
  rw [annotates, annotates, same]

theorem leafPairs_congr : leafPairs d = leafPairs d' := by
  rw [leafPairs, leafPairs, annotates_congr same, same]

theorem patternPairs_congr (skip : Bool) : patternPairs skip d = patternPairs skip d' := by
  rw [patternPairs, patternPairs, annotates_congr same, same]

theorem placeholderPairs_congr : placeholderPairs d = placeholderPairs d' := by
  rw [placeholderPairs, placeholderPairs, annotates_congr same, same]

/-- The name of a document is told with its keys only, it decides on none of them. -/
theorem accepted_congr (h : ∀ key ∈ placedKeys d', key.Accepted) :
    ∀ key ∈ placedKeys d, key.Accepted := by
  intro key hkey
  rw [placedKeys, same] at hkey
  rcases List.mem_append.mp hkey with hkey | hkey
  · obtain ⟨text, ht, rfl⟩ := List.mem_map.mp hkey
    exact h ⟨text, .schema, d'.displayName⟩ (List.mem_append_left _ (List.mem_map_of_mem ht))
  · obtain ⟨typed, ht, rfl⟩ := List.mem_map.mp hkey
    exact h ⟨typed.2, .type typed.1, d'.displayName⟩
      (List.mem_append_right _ (List.mem_map.mpr ⟨typed, ht, rfl⟩))

theorem stop?_eq_none_congr {skip : Bool} (h : stop? skip d' = none) : stop? skip d = none := by
  obtain ⟨hreserved, haccepted⟩ := stop?_eq_none_iff.mp h
  refine stop?_eq_none_iff.mpr ⟨?_, haccepted.imp_right (accepted_congr same)⟩
  rwa [DefinesReserved, annotates_congr same, same]

end Copies

theorem Repeats.exists_model {xs zs : List NamedDocument} (h : Repeats xs zs) {strict skip : Bool}
    {model : TypeSystem} (hx : (assemble (some xs) strict skip).value = .ok model) :
    ∃ model', (assemble (some zs) strict skip).value = .ok model' := by
  have hfree := List.findSome?_eq_none_iff.mp (assemble_ok.mp ⟨model, hx⟩)
  refine assemble_ok.mpr (List.findSome?_eq_none_iff.mpr fun again hagain => ?_)
  obtain ⟨original, horiginal, same⟩ := h.exists_original hagain
  exact stop?_eq_none_congr same (hfree original horiginal)

/-! ## What is settled -/

/-- When other documents follow those of a model and there is still a model, its annotated leaf
types come first as they were, and of its defaults all are left whose names the others do not
annotate. When documents are read again, each somewhere after it was first read, there is a model,
with the same leaf types, patterns of types and placeholders. -/
theorem assemble_settled {xs : List NamedDocument} {strict skip : Bool} {model : TypeSystem}
    (h : (assemble (some xs) strict skip).value = .ok model) :
    (∀ ys model', (assemble (some (xs ++ ys)) strict skip).value = .ok model' →
        ∃ settled defaults added defaults',
          model.leafTypes.toList = settled ++ defaults
            ∧ model'.leafTypes.toList = settled ++ added ++ defaults'
            ∧ (∀ entry ∈ settled, AnnotatesLeaf xs entry.1)
            ∧ (∀ entry, entry ∈ defaults ↔ entry ∈ defaultLeafTypes.map DefaultLeafType.entry
              ∧ ¬AnnotatesLeaf xs entry.1)
            ∧ (∀ entry ∈ added, AnnotatesLeaf ys entry.1 ∧ ¬AnnotatesLeaf xs entry.1)
            ∧ defaults'.Sublist defaults
            ∧ ∀ entry ∈ defaults, (entry ∈ defaults' ↔ ¬AnnotatesLeaf ys entry.1))
      ∧ ∀ zs, Repeats xs zs → ∃ model', (assemble (some zs) strict skip).value = .ok model'
        ∧ model'.leafTypes = model.leafTypes
        ∧ model'.entityPatterns.types = model.entityPatterns.types
        ∧ model'.placeholders = model.placeholders := by
  constructor
  · intro ys model' h'
    obtain ⟨added, hadded, hnew⟩ := leafTypes_append xs ys
    have hlater := assemble_leafTypes h'
    rw [hadded] at hlater
    refine ⟨_, _, added, _, assemble_leafTypes h, hlater, ?_, fun _ => mem_freeDefaults, hnew,
      ?_, ?_⟩
    · intro entry hentry
      rw [Registry.toList_addAll_empty] at hentry
      exact annotatesLeaf_iff.mpr ⟨entry, Registry.mem_of_mem_firstOfEach hentry, rfl⟩
    · rw [freeDefaults_append]
      exact List.filter_sublist
    · intro entry hentry
      rw [freeDefaults_append, List.mem_filter, and_iff_right hentry]
      simp
  · intro zs hrepeats
    obtain ⟨model', h'⟩ := hrepeats.exists_model h
    obtain ⟨hleaf, hpatterns, hplaceholders⟩ := assemble_registers h
    obtain ⟨hleaf', hpatterns', hplaceholders'⟩ := assemble_registers h'
    refine ⟨model', h', ?_, ?_, ?_⟩
    · rw [hleaf', hleaf, hrepeats.addAll_eq fun _ _ => leafPairs_congr]
    · rw [hpatterns', hpatterns, hrepeats.addAll_eq fun _ _ same => patternPairs_congr same skip]
    · rw [hplaceholders', hplaceholders, hrepeats.addAll_eq fun _ _ => placeholderPairs_congr]

/-- Takes one name from the defaults, and comes too late for another. -/
def numbersDocument : NamedDocument :=
  ⟨⟨[.typeExtension ⟨none, "Int", [], .scalar⟩, .typeExtension ⟨none, "Money", [], .enum []⟩],
    none⟩, none⟩

/-- With money read again and numbers behind them, the documents give what they gave. -/
theorem assemble_settled_money : ∃ model later again,
    (assemble (some [moneyDocument, mixedDocument, priceDocument])).value = .ok model
      ∧ (assemble (some [moneyDocument, mixedDocument, priceDocument, numbersDocument])).value =
        .ok later
      ∧ (assemble (some [moneyDocument, mixedDocument, moneyDocument, priceDocument,
        mixedDocument])).value = .ok again
      ∧ ("Float", ⟨"Float", some "float", some "float"⟩) ∈ later.leafTypes.toList
      ∧ again.leafTypes = model.leafTypes ∧ again.placeholders = model.placeholders := by
  have hk : (assemble (some [moneyDocument, mixedDocument, priceDocument])).value.isOk
      ∧ (assemble (some [moneyDocument, mixedDocument, priceDocument,
        numbersDocument])).value.isOk := by decide +kernel
  cases h : (assemble (some [moneyDocument, mixedDocument, priceDocument])).value with
  | error failure =>
      rw [h] at hk
      cases hk.1
  | ok model =>
      cases h' : (assemble (some [moneyDocument, mixedDocument, priceDocument,
          numbersDocument])).value with
      | error failure =>
          rw [h'] at hk
          cases hk.2
      | ok later =>
          obtain ⟨hlater, hagain⟩ := assemble_settled h
          obtain ⟨settled, defaults, added, defaults', -, hl, -, hd, -, -, hd'⟩ :=
            hlater [numbersDocument] later h'
          have hfloat : ("Float", ⟨"Float", some "float", some "float"⟩) ∈ defaults :=
            (hd _).mpr ⟨by simp [defaultLeafTypes, DefaultLeafType.entry], by decide⟩
          have hmoney : Repeats [moneyDocument, mixedDocument, priceDocument]
              ([moneyDocument, mixedDocument] ++ moneyDocument :: [priceDocument]) :=
            .copy .none List.mem_cons_self rfl
          have hmixed : Repeats [moneyDocument, mixedDocument, priceDocument]
              ([moneyDocument, mixedDocument, moneyDocument, priceDocument]
                ++ mixedDocument :: []) :=
            .copy hmoney (List.mem_cons_of_mem _ List.mem_cons_self) rfl
          obtain ⟨again, ha, hleaf, -, hplaceholders⟩ := hagain _ hmixed
          refine ⟨model, later, again, rfl, rfl, ha, ?_, hleaf, hplaceholders⟩
          rw [hl]
          exact List.mem_append_right _ ((hd' _ hfloat).mpr (by decide))

end SdlAssembly.Model
