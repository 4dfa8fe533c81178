import SdlAssembly.Model.Build
import SdlAssembly.Proofs.Merge

/-!
# The two halves of an assembly

An assembly succeeds where the definition documents alone and the annotation documents alone can be
taken in, and each field of the model is made by one half. So documents of one kind never matter for
what the documents of the other kind give.
-/

namespace SdlAssembly.Model

open Grammar Documents Annotation

/-! ## The two halves -/

/-- The documents without extensions, in order. -/
def definitionDocuments (documents : List NamedDocument) : List Document :=
  (documents.filter fun d => !annotates d).map (·.document)

/-- The documents with extensions, in order. -/
def annotationDocuments (documents : List NamedDocument) : List Document :=
  (documents.filter annotates).map (·.document)

/-- Patterns with all keys of documents, of which none is refused; or as they were, if keys are
skipped. -/
def TakesKeys (skip : Bool) (patterns : EntityPatterns) (documents : List Document)
    (patterns' : EntityPatterns) : Prop :=
  if skip then patterns' = patterns
  else (collectAllEntityPatterns patterns (documents.map (⟨·, none⟩))).value = (patterns', none)

/-- What a model becomes when each half is taken in alone. -/
structure InHalves (skip : Bool) (documents : List NamedDocument) (model model' : TypeSystem) :
    Prop where
  placeholders : (collectAllPlaceholders model.placeholders (definitionDocuments documents)).value =
    (model'.placeholders, none)
  definitions : model'.definitions =
    model.definitions ++ (definitionDocuments documents).flatMap (·.definitions)
  leafTypes : model'.leafTypes =
    (collectAllLeafTypes model.leafTypes (annotationDocuments documents)).value
  patterns : TakesKeys skip model.entityPatterns (annotationDocuments documents)
    model'.entityPatterns
  strict : model'.strict = model.strict

/-! ## One document after the other -/

/-- A second part that passes failures of the first on. -/
theorem andThen_eq_none {α ε : Type} {t : Logged (α × Option ε)}
    {f : α × Option ε → Logged (α × Option ε)} {c : α}
    (hf : ∀ a failure, (f (a, some failure)).value = (a, some failure)) :
    (t.andThen f).value = (c, none) ↔
      ∃ b, t.value = (b, none) ∧ (f (b, none)).value = (c, none) := by
  rw [Logged.value_andThen]
  obtain ⟨b, failure⟩ := t.value
  cases failure with
  | none => simp
  | some failure => simp [hf]

section Cons

variable {skip : Bool} {model model' : TypeSystem} {placeholders placeholders' : Placeholders}
  {patterns patterns' : EntityPatterns} {document : Document} {documents : List Document}

theorem addAll_cons {d : NamedDocument} {rest : List NamedDocument} :
    (TypeSystem.addAll skip model (d :: rest)).value = (model', none) ↔
      ∃ middle, (model.add skip d).value = (middle, none)
        ∧ (TypeSystem.addAll skip middle rest).value = (model', none) := by
  rw [TypeSystem.addAll]
  exact andThen_eq_none fun _ _ => rfl

theorem collectAllPlaceholders_cons :
    (collectAllPlaceholders placeholders (document :: documents)).value = (placeholders', none) ↔
      ∃ middle, (collectPlaceholders placeholders document).value = (middle, none)
        ∧ (collectAllPlaceholders middle documents).value = (placeholders', none) := by
  rw [collectAllPlaceholders]
  exact andThen_eq_none fun _ _ => rfl

theorem collectAllLeafTypes_cons (leafTypes : LeafTypes) :
    (collectAllLeafTypes leafTypes (document :: documents)).value =
      (collectAllLeafTypes (collectLeafTypes leafTypes document).value documents).value := by
  simp only [collectAllLeafTypes, foldl_andThen_value, List.foldl_cons, Logged.value_andThen]

/-- The name of a document matters for a complaint only. -/
theorem collectKeys_unnamed (fileName fileName' : Option String) {keys : List ConsultedKey}
    (h : (collectKeys fileName keys patterns).value = (patterns', none)) :
    (collectKeys fileName' keys patterns).value = (patterns', none) := by
  induction keys generalizing patterns with
  | nil => exact h
  | cons key rest ih =>
      obtain ⟨scope, fields⟩ := key
      unfold collectKeys at h ⊢
      cases fields with
      | none =>
          rw [Logged.value_andThen, noteUnusable_value] at h ⊢
          exact ih h
      | some fields =>
          cases hp : parseKey fields scope.text fileName with
          | error failure => simp [hp] at h
          | ok set =>
              have hp' : parseKey fields scope.text fileName' = .ok set :=
                parseKey_ok.mpr (parseKey_ok.mp hp)
              simp only [hp, hp', Logged.value_andThen, Logged.value_note] at h ⊢
              exact ih h

theorem takesKeys_single {d : NamedDocument} :
    TakesKeys false patterns [d.document] patterns' ↔
      (collectEntityPatterns patterns d).value = (patterns', none) := by
  have hone : (collectAllEntityPatterns patterns [⟨d.document, none⟩]).value = (patterns', none) ↔
      (collectEntityPatterns patterns ⟨d.document, none⟩).value = (patterns', none) := by
    rw [collectAllEntityPatterns, andThen_eq_none fun _ _ => rfl]
    simp [collectAllEntityPatterns]
  unfold TakesKeys
  simp only [Bool.false_eq_true, ↓reduceIte, List.map_cons, List.map_nil, hone]
  exact ⟨collectKeys_unnamed _ _, collectKeys_unnamed _ _⟩

theorem takesKeys_cons : TakesKeys skip patterns (document :: documents) patterns' ↔
    ∃ middle, TakesKeys skip patterns [document] middle
      ∧ TakesKeys skip middle documents patterns' := by
  cases skip with
  | true => simp [TakesKeys]
  | false =>
      simp only [takesKeys_single (d := ⟨document, none⟩)]
      unfold TakesKeys
      simp only [Bool.false_eq_true, ↓reduceIte, List.map_cons]
      rw [collectAllEntityPatterns]
      exact andThen_eq_none fun _ _ => rfl

/-! ## A document of each kind -/

theorem add_annotations {d : NamedDocument} (ha : annotates d) :
    (model.add skip d).value = (model', none) ↔
      ∃ patterns, TakesKeys skip model.entityPatterns [d.document] patterns
        ∧ model' = { model with
            leafTypes := (collectLeafTypes model.leafTypes d.document).value
            entityPatterns := patterns } := by
  simp only [TypeSystem.add, Logged.value_andThen, annotates_iff.mp ha, TypeSystem.annotate]
  cases skip with
  | true =>
      simp [TakesKeys, TypeSystem.addLeafTypes, eq_comm]
  | false =>
      simp only [takesKeys_single, TypeSystem.addEntityPatterns, TypeSystem.addLeafTypes,
        Bool.false_eq_true, ↓reduceIte, Logged.value_map]
      obtain ⟨patterns, failure⟩ := (collectEntityPatterns model.entityPatterns d).value
      cases failure with
      | none => simp [eq_comm]
      | some failure => simp

theorem add_definitions {d : NamedDocument} (ha : ¬annotates d) :
    (model.add skip d).value = (model', none) ↔
      ∃ placeholders, (collectPlaceholders model.placeholders d.document).value =
          (placeholders, none)
        ∧ model' = { model with
            definitions := model.definitions ++ d.document.definitions
            placeholders := placeholders } := by
  have hk : DocumentKind.ofDocument d.document = .definitions := by
    cases hk : DocumentKind.ofDocument d.document with
    | annotations => exact (ha (annotates_iff.mpr hk)).elim
    | definitions => rfl
  simp only [TypeSystem.add, Logged.value_andThen, hk, TypeSystem.define,
    TypeSystem.addPlaceholders, Logged.value_map]
  obtain ⟨placeholders, failure⟩ := (collectPlaceholders model.placeholders d.document).value
  cases failure with
  | none => simp [TypeSystem.addDefinitions, eq_comm]
  | some failure => simp

end Cons

/-! ## All documents -/

theorem definitionDocuments_cons (d : NamedDocument) (rest : List NamedDocument) :
    definitionDocuments (d :: rest) =
      if annotates d then definitionDocuments rest
      else d.document :: definitionDocuments rest := by
  unfold definitionDocuments
  by_cases h : annotates d <;> simp [h]

theorem annotationDocuments_cons (d : NamedDocument) (rest : List NamedDocument) :
    annotationDocuments (d :: rest) =
      if annotates d then d.document :: annotationDocuments rest
      else annotationDocuments rest := by
  unfold annotationDocuments
  by_cases h : annotates d <;> simp [h]

theorem InHalves.cons_annotations {skip : Bool} {d : NamedDocument} {rest : List NamedDocument}
    {model model' : TypeSystem} (ha : annotates d) : InHalves skip (d :: rest) model model' ↔
      ∃ middle, (model.add skip d).value = (middle, none) ∧ InHalves skip rest middle model' := by
  constructor
  · rintro ⟨hp, hd, hl, hk, hs⟩
    rw [definitionDocuments_cons, if_pos ha] at hp hd
    rw [annotationDocuments_cons, if_pos ha] at hl hk
    obtain ⟨patterns, hfirst, hk⟩ := takesKeys_cons.mp hk
    rw [collectAllLeafTypes_cons] at hl
    exact ⟨_, (add_annotations ha).mpr ⟨patterns, hfirst, rfl⟩, hp, hd, hl, hk, hs⟩
  · rintro ⟨middle, hadd, hp, hd, hl, hk, hs⟩
    obtain ⟨patterns, hfirst, rfl⟩ := (add_annotations ha).mp hadd
    constructor
    · rw [definitionDocuments_cons, if_pos ha]
      exact hp
    · rw [definitionDocuments_cons, if_pos ha]
      exact hd
    · rw [annotationDocuments_cons, if_pos ha, collectAllLeafTypes_cons]
      exact hl
    · rw [annotationDocuments_cons, if_pos ha]
      exact takesKeys_cons.mpr ⟨patterns, hfirst, hk⟩
    · exact hs

theorem InHalves.cons_definitions {skip : Bool} {d : NamedDocument} {rest : List NamedDocument}
    {model model' : TypeSystem} (ha : ¬annotates d) : InHalves skip (d :: rest) model model' ↔
      ∃ middle, (model.add skip d).value = (middle, none) ∧ InHalves skip rest middle model' := by
  constructor
  · rintro ⟨hp, hd, hl, hk, hs⟩
    rw [definitionDocuments_cons, if_neg ha] at hp hd
    rw [annotationDocuments_cons, if_neg ha] at hl hk
    obtain ⟨placeholders, hfirst, hp⟩ := collectAllPlaceholders_cons.mp hp
    rw [List.flatMap_cons, ← List.append_assoc] at hd
    exact ⟨_, (add_definitions ha).mpr ⟨placeholders, hfirst, rfl⟩, hp, hd, hl, hk, hs⟩
  · rintro ⟨middle, hadd, hp, hd, hl, hk, hs⟩
    obtain ⟨placeholders, hfirst, rfl⟩ := (add_definitions ha).mp hadd
    constructor
    · rw [definitionDocuments_cons, if_neg ha]
      exact collectAllPlaceholders_cons.mpr ⟨placeholders, hfirst, hp⟩
    · rw [definitionDocuments_cons, if_neg ha, List.flatMap_cons, ← List.append_assoc]
      exact hd
    · rw [annotationDocuments_cons, if_neg ha]
      exact hl
    · rw [annotationDocuments_cons, if_neg ha]
      exact hk
    · exact hs

theorem inHalves_nil {skip : Bool} {model model' : TypeSystem} :
    InHalves skip [] model model' ↔ model = model' := by
  constructor
  · rintro ⟨hp, hd, hl, hk, hs⟩
    have hplaceholders : model.placeholders = model'.placeholders := congrArg Prod.fst hp
    have hdefinitions : model'.definitions = model.definitions := hd.trans (List.append_nil _)
    have hleaf : model'.leafTypes = model.leafTypes := hl
    have hpatterns : model'.entityPatterns = model.entityPatterns := by
      cases skip with
      | true => exact hk
      | false => exact (congrArg Prod.fst hk).symm
    obtain ⟨_, _, _, _, _⟩ := model
    obtain ⟨_, _, _, _, _⟩ := model'
    simp_all
  · rintro rfl
    have hpatterns : TakesKeys skip model.entityPatterns [] model.entityPatterns := by
      cases skip <;> rfl
    exact ⟨rfl, (List.append_nil _).symm, rfl, hpatterns, rfl⟩

/-- Documents are taken in together where each half is taken in alone. -/
theorem addAll_eq_none {skip : Bool} {documents : List NamedDocument} {model model' : TypeSystem} :
    (TypeSystem.addAll skip model documents).value = (model', none) ↔
      InHalves skip documents model model' := by
  induction documents generalizing model with
  | nil =>
      rw [inHalves_nil]
      simp [TypeSystem.addAll]
  | cons d rest ih =>
      rw [addAll_cons]
      simp only [ih]
      by_cases ha : annotates d
      · exact (InHalves.cons_annotations ha).symm
      · exact (InHalves.cons_definitions ha).symm

/-! ## Assemblies -/

theorem assemble_eq_ok {documents : List NamedDocument} {strict skip : Bool} {model : TypeSystem} :
    (assemble (some documents) strict skip).value = .ok model ↔
      ∃ merged, InHalves skip documents { strict := strict } merged
        ∧ merged.addDefaults.value = model := by
  simp only [← addAll_eq_none]
  unfold assemble
  rw [Logged.value_andThen]
  obtain ⟨merged, failure⟩ := (TypeSystem.addAll skip { strict := strict } documents).value
  cases failure with
  | none => simp
  | some failure => simp

/-- The schema of a model needs its definitions, its placeholders and its strictness only. -/
theorem build_congr {model model' : TypeSystem} (hd : model.definitions = model'.definitions)
    (hp : model.placeholders = model'.placeholders) (hs : model.strict = model'.strict) :
    model.build = model'.build := by
  obtain ⟨_, _, _, _, _⟩ := model
  obtain ⟨_, _, _, _, _⟩ := model'
  obtain rfl := hd
  obtain rfl := hp
  obtain rfl := hs
  rfl

section Halves

variable {xs ys : List NamedDocument} {strict strict' skip skip' : Bool} {model model' : TypeSystem}

theorem InHalves.definitions_eq (h : InHalves skip xs { strict := strict } model)
    (h' : InHalves skip' ys { strict := strict' } model')
    (hd : definitionDocuments xs = definitionDocuments ys) :
    model.definitions = model'.definitions ∧ model.placeholders = model'.placeholders := by
  constructor
  · rw [h.definitions, h'.definitions, hd]
  · have hp := h'.placeholders
    rw [← hd] at hp
    exact congrArg Prod.fst (h.placeholders.symm.trans hp)

theorem InHalves.leafTypes_eq (h : InHalves skip xs { strict := strict } model)
    (h' : InHalves skip' ys { strict := strict' } model')
    (ha : annotationDocuments xs = annotationDocuments ys) : model.leafTypes = model'.leafTypes := by
  rw [h.leafTypes, h'.leafTypes, ha]

theorem InHalves.patterns_eq (h : InHalves skip xs { strict := strict } model)
    (h' : InHalves skip ys { strict := strict' } model')
    (ha : annotationDocuments xs = annotationDocuments ys) :
    model.entityPatterns = model'.entityPatterns := by
  have hk := h.patterns
  have hk' := h'.patterns
  rw [← ha] at hk'
  cases skip with
  | true => exact Eq.trans hk hk'.symm
  | false => exact congrArg Prod.fst (Eq.trans (Eq.symm hk) hk')

end Halves

/-- Documents with the same two halves make the same model. Of any two assemblies, the same
definition documents make the same definitions and placeholders and, if they are both strict or both
not, the same schema or failure; the same annotation documents make the same leaf types and, if keys
are skipped in both or in neither, the same patterns. -/
theorem assemble_halves (xs ys : List NamedDocument) :
    (definitionDocuments xs = definitionDocuments ys →
      annotationDocuments xs = annotationDocuments ys →
      ∀ strict skip model, (assemble (some xs) strict skip).value = .ok model →
        (assemble (some ys) strict skip).value = .ok model)
      ∧ ∀ strict strict' skip skip' model model',
        (assemble (some xs) strict skip).value = .ok model →
        (assemble (some ys) strict' skip').value = .ok model' →
        (definitionDocuments xs = definitionDocuments ys →
            model.definitions = model'.definitions ∧ model.placeholders = model'.placeholders
              ∧ (strict = strict' → model.build = model'.build))
          ∧ (annotationDocuments xs = annotationDocuments ys →
            model.leafTypes = model'.leafTypes
              ∧ (skip = skip' → model.entityPatterns = model'.entityPatterns)) := by
  constructor
  · intro hd ha strict skip model h
    obtain ⟨merged, ⟨hp, hdefs, hl, hk, hs⟩, rfl⟩ := assemble_eq_ok.mp h
    rw [hd] at hp hdefs
    rw [ha] at hl hk
    exact assemble_eq_ok.mpr ⟨merged, ⟨hp, hdefs, hl, hk, hs⟩, rfl⟩
  · intro strict strict' skip skip' model model' h h'
    obtain ⟨merged, hm, rfl⟩ := assemble_eq_ok.mp h
    obtain ⟨merged', hm', rfl⟩ := assemble_eq_ok.mp h'
    simp only [addDefaults_value]
    constructor
    · intro hd
      obtain ⟨hdefs, hp⟩ := hm.definitions_eq hm' hd
      refine ⟨hdefs, hp, fun hs => build_congr hdefs hp ?_⟩
      exact hm.strict.trans (hs.trans hm'.strict.symm)
    · intro ha
      refine ⟨by rw [hm.leafTypes_eq hm' ha], fun hs => ?_⟩
      subst hs
      exact hm.patterns_eq hm' ha

def moneyDocument : NamedDocument :=
  ⟨⟨[.type ⟨none, "Money", [], .scalar⟩], none⟩, some "money.graphql"⟩

/-- Extensions, and a type that is left out for their sake. -/
def mixedDocument : NamedDocument :=
  ⟨⟨[.typeExtension ⟨none, "Money",
        [⟨"runtimeType", [⟨"name", .string "Decimal" false, none⟩], none⟩], .scalar⟩,
      .type ⟨none, "Ignored", [], .object [] []⟩,
      .schemaExtension ⟨none, [⟨"key", [⟨"fields", .string "id" false, none⟩], none⟩], []⟩], none⟩,
    none⟩

def priceDocument : NamedDocument :=
  ⟨⟨[.type ⟨none, "Query", [], .object [] [⟨none, "price", [], .named "Money", []⟩]⟩], none⟩, none⟩

/-- Wherever the extensions stand, the model is the same, and without them the schema is. -/
theorem assemble_halves_mixed : ∃ model plain,
    (assemble (some [moneyDocument, mixedDocument, priceDocument])).value = .ok model
      ∧ (assemble (some [mixedDocument, moneyDocument, priceDocument])).value = .ok model
      ∧ (assemble (some [moneyDocument, priceDocument])).value = .ok plain
      ∧ model.build = plain.build := by
  have hk : (assemble (some [moneyDocument, mixedDocument, priceDocument])).value.isOk
      ∧ (assemble (some [moneyDocument, priceDocument])).value.isOk := by decide +kernel
  cases h : (assemble (some [moneyDocument, mixedDocument, priceDocument])).value with
  | error failure =>
      rw [h] at hk
      cases hk.1
  | ok model =>
      cases h' : (assemble (some [moneyDocument, priceDocument])).value with
      | error failure =>
          rw [h'] at hk
          cases hk.2
      | ok plain =>
          have hother := (assemble_halves [moneyDocument, mixedDocument, priceDocument]
            [mixedDocument, moneyDocument, priceDocument]).1 rfl rfl true false model h
          have hhalf := ((assemble_halves _ _).2 _ _ _ _ _ _ h h').1 rfl
          exact ⟨model, plain, rfl, hother, rfl, hhalf.2.2 rfl⟩

end SdlAssembly.Model
