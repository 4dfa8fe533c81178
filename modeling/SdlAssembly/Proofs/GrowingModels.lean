import SdlAssembly.Model.Session
import SdlAssembly.Proofs.Merge

/-!
# Models only grow

Whatever a session does to its model, the lists that the model holds are continued at their ends, and
the steps that only ask leave it as it was. Both hold of steps that fail, too.
-/

namespace SdlAssembly.Model

open Grammar Documents Annotation

/-! ## Registries -/

theorem prefix_tryAdd {α : Type} (r : Registry α) (key : String) (value : α) :
    r.toList <+: (r.tryAdd key value).toList := by
  rw [Registry.toList_tryAdd]
  split
  · exact List.prefix_refl _
  · exact List.prefix_append _ _

theorem prefix_addAll {α : Type} (r : Registry α) (pairs : List (String × α)) :
    r.toList <+: (r.addAll pairs).toList := by
  rw [Registry.toList_addAll]
  exact List.prefix_append _ _

/-- Scalars are added up to the first that is refused. -/
theorem prefix_registerScalars (nodes : List TypeNode) (placeholders : Placeholders) :
    placeholders.toList <+: (registerScalars nodes placeholders).value.1.toList := by
  induction nodes generalizing placeholders with
  | nil => exact List.prefix_refl _
  | cons node rest ih =>
      unfold registerScalars
      split
      · exact ih placeholders
      · split
        · exact List.prefix_refl _
        · rw [Logged.value_andThen, registerPlaceholder_value]
          exact (prefix_tryAdd placeholders _ _).trans (ih _)

/-! ## Patterns -/

/-- Patterns that go on where others end. -/
structure PatternsGrow (patterns patterns' : EntityPatterns) : Prop where
  globals : patterns.globals <+: patterns'.globals
  types : patterns.types.toList <+: patterns'.types.toList

theorem PatternsGrow.refl (patterns : EntityPatterns) : PatternsGrow patterns patterns :=
  ⟨List.prefix_refl _, List.prefix_refl _⟩

theorem PatternsGrow.trans {first second third : EntityPatterns} (h : PatternsGrow first second)
    (h' : PatternsGrow second third) : PatternsGrow first third :=
  ⟨h.globals.trans h'.globals, h.types.trans h'.types⟩

theorem patternsGrow_add (patterns : EntityPatterns) (scope : KeyScope) (set : SelectionSet) :
    PatternsGrow patterns (patterns.add scope set) := by
  cases scope with
  | schema => exact ⟨List.prefix_append _ _, List.prefix_refl _⟩
  | type name => exact ⟨List.prefix_refl _, prefix_tryAdd _ _ _⟩

/-- Keys are added up to the first that is refused. -/
theorem patternsGrow_collectKeys (fileName : Option String) (keys : List ConsultedKey)
    (patterns : EntityPatterns) :
    PatternsGrow patterns (collectKeys fileName keys patterns).value.1 := by
  induction keys generalizing patterns with
  | nil => exact .refl patterns
  | cons key rest ih =>
      unfold collectKeys
      split
      · rw [Logged.value_andThen, noteUnusable_value]
        exact ih patterns
      · split
        · exact .refl patterns
        · rename_i set _
          exact (patternsGrow_add patterns key.scope set).trans (ih _)

/-! ## Models -/

/-- A model that goes on where another ends: the lists of the other begin its own. -/
structure TypeSystem.GrowsTo (model model' : TypeSystem) : Prop where
  definitions : model.definitions <+: model'.definitions
  placeholders : model.placeholders.toList <+: model'.placeholders.toList
  leafTypes : model.leafTypes.toList <+: model'.leafTypes.toList
  patterns : PatternsGrow model.entityPatterns model'.entityPatterns

/-- No registry of a model has two entries for one key. -/
structure TypeSystem.KeysUnique (model : TypeSystem) : Prop where
  placeholders : (model.placeholders.toList.map Prod.fst).Nodup
  leafTypes : (model.leafTypes.toList.map Prod.fst).Nodup
  types : (model.entityPatterns.types.toList.map Prod.fst).Nodup

namespace TypeSystem

theorem keysUnique (model : TypeSystem) : model.KeysUnique :=
  ⟨model.placeholders.nodup, model.leafTypes.nodup, model.entityPatterns.types.nodup⟩

theorem GrowsTo.refl (model : TypeSystem) : model.GrowsTo model :=
  ⟨List.prefix_refl _, List.prefix_refl _, List.prefix_refl _, .refl _⟩

theorem GrowsTo.trans {first second third : TypeSystem} (h : first.GrowsTo second)
    (h' : second.GrowsTo third) : first.GrowsTo third :=
  ⟨h.definitions.trans h'.definitions, h.placeholders.trans h'.placeholders,
    h.leafTypes.trans h'.leafTypes, h.patterns.trans h'.patterns⟩

variable (model : TypeSystem)

theorem growsTo_leafTypes {leafTypes : LeafTypes}
    (h : model.leafTypes.toList <+: leafTypes.toList) :
    model.GrowsTo { model with leafTypes := leafTypes } :=
  ⟨List.prefix_refl _, List.prefix_refl _, h, .refl _⟩

theorem growsTo_entityPatterns {patterns : EntityPatterns}
    (h : PatternsGrow model.entityPatterns patterns) :
    model.GrowsTo { model with entityPatterns := patterns } :=
  ⟨List.prefix_refl _, List.prefix_refl _, List.prefix_refl _, h⟩

theorem addLeafTypes_growsTo (document : Document) :
    model.GrowsTo (model.addLeafTypes document).value := by
  apply growsTo_leafTypes
  rw [collectLeafTypes_value]
  exact prefix_addAll _ _

theorem addEntityPatterns_growsTo (d : NamedDocument) :
    model.GrowsTo (model.addEntityPatterns d).value.1 := by
  apply growsTo_entityPatterns
  exact patternsGrow_collectKeys _ _ _

theorem addPlaceholders_growsTo (document : Document) :
    model.GrowsTo (model.addPlaceholders document).value.1 :=
  ⟨List.prefix_refl _, prefix_registerScalars _ _, List.prefix_refl _, .refl _⟩

theorem addDefinitions_growsTo (document : Document) :
    model.GrowsTo (model.addDefinitions document) :=
  ⟨List.prefix_append _ _, List.prefix_refl _, List.prefix_refl _, .refl _⟩

theorem addDefaults_growsTo : model.GrowsTo model.addDefaults.value := by
  rw [addDefaults_value]
  apply growsTo_leafTypes
  exact prefix_addAll _ _

theorem annotate_growsTo (d : NamedDocument) : model.GrowsTo (model.annotate d).value.1 := by
  have hleaf := model.addLeafTypes_growsTo d.document
  exact hleaf.trans (addEntityPatterns_growsTo _ d)

end TypeSystem

/-! ## Steps -/

/-- Whether a step only asks: it builds, composes, annotates, looks up, prints or requests. -/
def Step.asks : Step → Bool
  | .build | .compose | .annotate | .touch _ _ _ | .lookup _ | .print | .request => true
  | .leafTypes _ | .entityPatterns _ | .placeholders _ | .definitions _ | .annotations _
  | .defaults | .tryLeafType _ _ | .tryPattern _ _ | .setStrict _ => false

namespace Session

theorem withRemembered_model (s : Session) {f : Annotated.AnnotatedSchema → Session × Answer}
    (h : ∀ annotated, (f annotated).1.model = s.model) :
    (s.withRemembered f).value.1.model = s.model := by
  unfold withRemembered
  split
  · rfl
  · exact h _

/-- A step that asks leaves the model as it was, whatever the answer. -/
theorem run_asks (s : Session) {step : Step} (h : step.asks) :
    (s.run step).value.1.model = s.model := by
  cases step with
  | build => rfl
  | compose => rfl
  | annotate =>
      unfold run
      rw [Logged.value_map]
      split <;> rfl
  | touch name info key => exact s.withRemembered_model fun _ => rfl
  | lookup name => exact s.withRemembered_model fun _ => rfl
  | print => exact s.withRemembered_model fun _ => rfl
  | request => rfl
  | _ => cases h

/-- Every step continues the model, also one that stops midway. -/
theorem run_growsTo (s : Session) (step : Step) : s.model.GrowsTo (s.run step).value.1.model := by
  by_cases h : step.asks
  · rw [s.run_asks h]
    exact .refl _
  · cases step with
    | leafTypes document => exact s.model.addLeafTypes_growsTo document
    | entityPatterns d => exact s.model.addEntityPatterns_growsTo d
    | placeholders document => exact s.model.addPlaceholders_growsTo document
    | definitions document => exact s.model.addDefinitions_growsTo document
    | annotations d => exact s.model.annotate_growsTo d
    | defaults => exact s.model.addDefaults_growsTo
    | tryLeafType name info => exact s.model.growsTo_leafTypes (prefix_tryAdd _ _ _)
    | tryPattern name set => exact s.model.growsTo_entityPatterns (patternsGrow_add _ _ _)
    | setStrict value =>
        exact ⟨List.prefix_refl _, List.prefix_refl _, List.prefix_refl _, .refl _⟩
    | _ => exact (h rfl).elim

/-! ## Runs -/

/-- The model of a session before a run and after each of its steps. -/
def models (s : Session) (steps : List Step) : List TypeSystem :=
  s.model :: (s.runAll steps).value.map Prod.snd

theorem models_cons (s : Session) (step : Step) (rest : List Step) :
    s.models (step :: rest) = s.model :: (s.run step).value.1.models rest := rfl

theorem length_models (s : Session) (steps : List Step) :
    (s.models steps).length = steps.length + 1 := by
  induction steps generalizing s with
  | nil => rfl
  | cons step rest ih => rw [models_cons, List.length_cons, ih, List.length_cons]

theorem pairwise_models (s : Session) (steps : List Step) :
    (s.models steps).Pairwise TypeSystem.GrowsTo := by
  induction steps generalizing s with
  | nil => exact List.pairwise_singleton _ _
  | cons step rest ih =>
      have hnext := ih (s.run step).value.1
      rw [models_cons]
      refine List.pairwise_cons.mpr ⟨fun later hm => ?_, hnext⟩
      rcases List.mem_cons.mp hm with rfl | hm
      · exact s.run_growsTo step
      · exact (s.run_growsTo step).trans ((List.pairwise_cons.mp hnext).1 later hm)

theorem models_asks (s : Session) {steps : List Step} {i : Nat} {step : Step}
    (hi : steps[i]? = some step) (h : step.asks) :
    (s.models steps)[i + 1]? = (s.models steps)[i]? := by
  induction steps generalizing s i with
  | nil => cases hi
  | cons first rest ih =>
      rw [models_cons, List.getElem?_cons_succ]
      cases i with
      | zero =>
          obtain rfl : first = step := Option.some.inj hi
          exact congrArg some (s.run_asks h)
      | succ i =>
          rw [List.getElem?_cons_succ]
          exact ih _ hi

/-- In a run of any steps, failed ones among them, every model continues all models before it, no
registry has two entries for one key, and steps that ask change nothing. -/
theorem models_grow (s : Session) (steps : List Step) :
    (s.models steps).length = steps.length + 1
      ∧ (s.models steps).Pairwise TypeSystem.GrowsTo
      ∧ (∀ model ∈ s.models steps, model.KeysUnique)
      ∧ ∀ i step, steps[i]? = some step → step.asks →
          (s.models steps)[i + 1]? = (s.models steps)[i]? :=
  ⟨s.length_models steps, s.pairwise_models steps, fun model _ => model.keysUnique,
    fun _ _ hi h => s.models_asks hi h⟩

end Session

end SdlAssembly.Model
