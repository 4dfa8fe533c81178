import SdlAssembly.Proofs.Merge
import SdlAssembly.Proofs.Schema.Sources
import SdlAssembly.Proofs.Tree.Definitions

/-!
# Sound models

A model is sound if all that it holds can be written and its placeholders take no names that are
standard or taken. Every step of an assembly keeps a model sound.
-/

namespace SdlAssembly.Model

open Grammar Lexer Documents Annotation Schemas

/-! ## Sound models -/

/-- A pattern that was read from a text. -/
def IsPattern (key : SelectionSet) : Prop := ∃ fields, parseSelectionSet fields = .ok key

/-- The patterns of both kinds. -/
def allPatterns (patterns : EntityPatterns) : List SelectionSet :=
  patterns.globals ++ patterns.types.values

structure TypeSystem.Sound (model : TypeSystem) : Prop where
  definitions : ∀ d ∈ model.definitions, d.Proper
  names : ∀ p ∈ model.placeholders.values, IsName p.name ∧ isStandardType p.name = false
  nodup : (model.placeholders.values.map Placeholder.name).Nodup
  patterns : ∀ key ∈ allPatterns model.entityPatterns, IsPattern key

/-! ## Placeholders -/

/-- Placeholders under their own names, which can be written and are not standard. -/
def OwnNames (placeholders : Placeholders) : Prop :=
  ∀ pair ∈ placeholders.toList,
    pair.2.name = pair.1 ∧ IsName pair.1 ∧ isStandardType pair.1 = false

theorem OwnNames.map_name {placeholders : Placeholders} (h : OwnNames placeholders) :
    placeholders.values.map Placeholder.name = placeholders.keys := by
  have hvalues : placeholders.values = placeholders.toList.map Prod.snd := rfl
  rw [hvalues, Registry.keys_eq_map, List.map_map]
  exact List.map_congr_left fun pair hp => (h pair hp).1

theorem OwnNames.registerScalars {nodes : List TypeNode} {placeholders : Placeholders}
    (hn : ∀ node ∈ nodes, IsName node.name) (h : OwnNames placeholders) :
    OwnNames (registerScalars nodes placeholders).value.1 := by
  induction nodes generalizing placeholders with
  | nil => exact h
  | cons node rest ih =>
      obtain ⟨hname, hn⟩ := List.forall_mem_cons.mp hn
      unfold Model.registerScalars
      split
      · exact ih hn h
      · rename_i hb
        split
        · exact h
        · rename_i hi
          rw [Logged.value_andThen, registerPlaceholder_value]
          refine ih hn fun pair hp => ?_
          rw [Registry.toList_tryAdd] at hp
          split at hp
          · exact h pair hp
          · rcases List.mem_append.mp hp with hp | hp
            · exact h pair hp
            · obtain rfl := List.mem_singleton.mp hp
              exact ⟨rfl, hname, by simp [isStandardType, hb, hi]⟩

/-! ## Patterns -/

theorem allPatterns_add {patterns : EntityPatterns} {scope : KeyScope} {set : SelectionSet}
    (h : ∀ key ∈ allPatterns patterns, IsPattern key) (hs : IsPattern set) :
    ∀ key ∈ allPatterns (patterns.add scope set), IsPattern key := by
  intro key hk
  cases scope with
  | schema =>
      simp only [allPatterns, EntityPatterns.add, List.append_assoc, List.mem_append,
        List.mem_singleton] at hk
      rcases hk with hk | rfl | hk
      · exact h key (List.mem_append_left _ hk)
      · exact hs
      · exact h key (List.mem_append_right _ hk)
  | type name =>
      rcases List.mem_append.mp hk with hk | hk
      · exact h key (List.mem_append_left _ hk)
      · obtain ⟨pair, hp, rfl⟩ := List.mem_map.mp hk
        have hp : pair ∈ (patterns.types.tryAdd name set).toList := hp
        rw [Registry.toList_tryAdd] at hp
        split at hp
        · exact h _ (List.mem_append_right _ (List.mem_map_of_mem hp))
        · rcases List.mem_append.mp hp with hp | hp
          · exact h _ (List.mem_append_right _ (List.mem_map_of_mem hp))
          · obtain rfl := List.mem_singleton.mp hp
            exact hs

theorem allPatterns_collectKeys {fileName : Option String} {keys : List ConsultedKey}
    {patterns : EntityPatterns} (h : ∀ key ∈ allPatterns patterns, IsPattern key) :
    ∀ key ∈ allPatterns (collectKeys fileName keys patterns).value.1, IsPattern key := by
  induction keys generalizing patterns with
  | nil => exact h
  | cons key rest ih =>
      unfold collectKeys
      split
      · rw [Logged.value_andThen, noteUnusable_value]
        exact ih h
      · rename_i fields hf
        split
        · exact h
        · rename_i set hp
          exact ih (allPatterns_add h ⟨fields, parseKey_ok.mp hp⟩)

/-- A document only adds patterns that it reads. -/
theorem isPattern_add {model : TypeSystem} (h : ∀ key ∈ allPatterns model.entityPatterns, IsPattern key)
    (skipEntities : Bool) (d : NamedDocument) :
    ∀ key ∈ allPatterns (model.add skipEntities d).value.1.entityPatterns, IsPattern key := by
  unfold TypeSystem.add
  rw [Logged.value_andThen]
  cases DocumentKind.ofDocument d.document with
  | annotations =>
      unfold TypeSystem.annotate
      rw [Logged.value_andThen]
      cases skipEntities with
      | true => exact h
      | false => exact allPatterns_collectKeys h
  | definitions =>
      unfold TypeSystem.define TypeSystem.addPlaceholders
      simp only [Logged.value_map]
      cases (collectPlaceholders model.placeholders d.document).value with
      | mk placeholders failure => cases failure <;> exact h

/-! ## Definitions and placeholders -/

/-- What documents that can be written keep. -/
structure TypeSystem.Kept (model : TypeSystem) : Prop where
  definitions : ∀ d ∈ model.definitions, d.Proper
  names : OwnNames model.placeholders

theorem TypeSystem.Kept.sound {model : TypeSystem} (h : model.Kept)
    (hp : ∀ key ∈ allPatterns model.entityPatterns, IsPattern key) : model.Sound := by
  refine ⟨h.definitions, fun p hp => ?_, ?_, hp⟩
  · obtain ⟨pair, hm, rfl⟩ := List.mem_map.mp hp
    obtain ⟨hn, hnames⟩ := h.names pair hm
    exact hn ▸ hnames
  · rw [h.names.map_name]
    exact model.placeholders.nodup

/-- A step for a document that can be written. -/
theorem TypeSystem.Kept.add {model : TypeSystem} (h : model.Kept) (skipEntities : Bool)
    {d : NamedDocument} (hd : ∀ x ∈ d.document.definitions, x.Proper) :
    (model.add skipEntities d).value.1.Kept := by
  unfold TypeSystem.add
  rw [Logged.value_andThen]
  cases DocumentKind.ofDocument d.document with
  | annotations =>
      unfold TypeSystem.annotate
      rw [Logged.value_andThen]
      cases skipEntities <;> exact ⟨h.definitions, h.names⟩
  | definitions =>
      have hnames : ∀ node ∈ typesIn .scalarDefinition d.document, IsName node.name := by
        intro node hn
        rw [typesIn_eq fun x => (inRole?_eq x).1] at hn
        obtain ⟨x, hx, hn⟩ := List.mem_filterMap.mp hn
        unfold scalarDefinition? at hn
        split at hn
        · cases hn
          exact (hd _ hx : TypeNode.Proper _).name
        · cases hn
      have hp := h.names.registerScalars hnames
      have hc : (collectPlaceholders model.placeholders d.document).value =
        (registerScalars (typesIn .scalarDefinition d.document) model.placeholders).value := rfl
      unfold TypeSystem.define TypeSystem.addPlaceholders
      simp only [Logged.value_map]
      cases hr : (collectPlaceholders model.placeholders d.document).value with
      | mk placeholders failure =>
          rw [← hc, hr] at hp
          cases failure with
          | some name => exact ⟨h.definitions, hp⟩
          | none => exact ⟨List.forall_mem_append.mpr ⟨h.definitions, hd⟩, hp⟩

/-! ## Whole assemblies -/

section Whole

variable {strict skipEntities : Bool} {documents : List NamedDocument} {model : TypeSystem}
  {P : TypeSystem → Prop}

/-- What every document keeps is kept up to the end or the first failure. -/
theorem keeps_addAll (hadd : ∀ model, P model → ∀ d ∈ documents, P (model.add skipEntities d).value.1)
    (h : P model) : P (TypeSystem.addAll skipEntities model documents).value.1 := by
  induction documents generalizing model with
  | nil => exact h
  | cons d rest ih =>
      have hk := hadd model h d List.mem_cons_self
      unfold TypeSystem.addAll
      rw [Logged.value_andThen]
      cases hr : (model.add skipEntities d).value with
      | mk next failure =>
          rw [hr] at hk
          cases failure with
          | some failure => exact hk
          | none => exact ih (fun model hm d hd => hadd model hm d (List.mem_cons_of_mem _ hd)) hk

/-- What every document keeps, and the default leaf types too, holds of an assembled model. -/
theorem keeps_assemble (hempty : P { strict := strict })
    (hadd : ∀ model, P model → ∀ d ∈ documents, P (model.add skipEntities d).value.1)
    (hdefaults : ∀ model, P model → P model.addDefaults.value)
    (h : (assemble (some documents) strict skipEntities).value = .ok model) : P model := by
  have hk := keeps_addAll hadd hempty
  unfold assemble at h
  cases hr : (TypeSystem.addAll skipEntities { strict := strict } documents).value with
  | mk merged failure =>
      rw [hr] at hk
      cases failure with
      | some failure => simp [hr] at h
      | none =>
          simp only [Logged.value_andThen, hr, Logged.value_note, Except.ok.injEq] at h
          exact h ▸ hdefaults merged hk

/-- The patterns of a model were read from texts. -/
theorem isPattern_assemble (h : (assemble (some documents) strict skipEntities).value = .ok model) :
    ∀ key ∈ allPatterns model.entityPatterns, IsPattern key := by
  refine keeps_assemble (P := fun model => ∀ key ∈ allPatterns model.entityPatterns, IsPattern key)
    (fun key hk => nomatch hk) (fun model hk d _ => isPattern_add hk skipEntities d)
    (fun model hk => ?_) h
  rw [addDefaults_value]
  exact hk

/-- Documents that can be written make sound models. -/
theorem sound_assemble (hd : ∀ d ∈ documents, ∀ x ∈ d.document.definitions, x.Proper)
    (h : (assemble (some documents) strict skipEntities).value = .ok model) : model.Sound := by
  refine (keeps_assemble (P := TypeSystem.Kept) ?empty ?add ?defaults h).sound
    (isPattern_assemble h)
  case empty => exact ⟨by simp, fun pair hp => nomatch hp⟩
  case add => exact fun model hk d hm => hk.add skipEntities (hd d hm)
  case defaults =>
    intro model hk
    rw [addDefaults_value]
    exact ⟨hk.definitions, hk.names⟩

end Whole

end SdlAssembly.Model
