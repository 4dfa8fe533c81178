import SdlAssembly.Model.Compose
import SdlAssembly.Proofs.Redefinition
import SdlAssembly.Proofs.Repetition

/-!
# Scalars count once

Documents of definitions make the model that their definitions make, one after the other, wherever a
document ends. A scalar of them gives a placeholder with its first definition, and no definition of
it is built from. So a definition of a scalar that comes after another one of its name, or that is of
a built-in scalar, makes no difference to what is built, annotated and composed.
-/

namespace SdlAssembly.Model

open Grammar Documents Annotation Schemas

/-! ## Models of definitions -/

/-- The model that definitions make. -/
def TypeSystem.ofDefinitions (definitions : List Definition) (strict : Bool) : TypeSystem :=
  { definitions := definitions
    placeholders := ({} : Placeholders).addAll (scalarEntries definitions)
    leafTypes := ({} : LeafTypes).addAll (defaultLeafTypes.map DefaultLeafType.entry)
    strict := strict }

/-- The first scalar of definitions that takes a reserved name. -/
def reservedIn? (definitions : List Definition) : Option ReservedName :=
  ((definitions.filterMap scalarDefinition?).find? fun node => isIntrospectionType node.name).map
    (⟨·.name⟩)

theorem reservedIn?_append (xs ys : List Definition) :
    reservedIn? (xs ++ ys) = (reservedIn? xs).or (reservedIn? ys) := by
  rw [reservedIn?, List.filterMap_append, List.find?_append, Option.map_or]
  rfl

theorem reservedIn?_eq_none {definitions : List Definition} : reservedIn? definitions = none ↔
    ∀ node ∈ definitions.filterMap scalarDefinition?, isIntrospectionType node.name = false := by
  rw [reservedIn?, Option.map_eq_none_iff, List.find?_eq_none]
  simp only [Bool.not_eq_true]

theorem defines_ofDefinitions {definitions : List Definition} (h : reservedIn? definitions = none)
    (strict : Bool) : (TypeSystem.ofDefinitions definitions strict).Defines definitions strict where
  placeholders := Registry.toList_addAll_empty _
  notReserved := reservedIn?_eq_none.mp h
  strict := rfl
  definitions := rfl

section Assembling

variable {documents : List NamedDocument} {skip : Bool}

theorem definitionsOf_cons (d : NamedDocument) (rest : List NamedDocument) :
    definitionsOf (d :: rest) = d.document.definitions ++ definitionsOf rest := List.flatMap_cons

theorem definitionsOf_append (xs ys : List NamedDocument) :
    definitionsOf (xs ++ ys) = definitionsOf xs ++ definitionsOf ys := List.flatMap_append

/-- Documents of definitions stop an assembly for a reserved name alone. -/
theorem findSome?_stop?_definitions (h : ∀ d ∈ documents, ¬annotates d) :
    documents.findSome? (stop? skip) = (reservedIn? (definitionsOf documents)).map .reserved := by
  induction documents with
  | nil => rfl
  | cons d rest ih =>
      obtain ⟨hd, h⟩ := List.forall_mem_cons.mp h
      have hstop : stop? skip d = (reservedIn? d.document.definitions).map .reserved := if_neg hd
      rw [List.findSome?_cons, ih h, hstop, definitionsOf_cons, reservedIn?_append, Option.map_or]
      cases reservedIn? d.document.definitions <;> rfl

/-- What documents of definitions add. -/
theorem addAll_definitions_eq {model model' : TypeSystem} (h : ∀ d ∈ documents, ¬annotates d)
    (ha : (TypeSystem.addAll skip model documents).value = (model', none)) :
    model' = { model with
      definitions := model.definitions ++ definitionsOf documents
      placeholders := model.placeholders.addAll (scalarEntries (definitionsOf documents)) } := by
  induction documents generalizing model with
  | nil =>
      obtain rfl : model = model' := congrArg Prod.fst ha
      simp [definitionsOf, scalarEntries]
  | cons d rest ih =>
      obtain ⟨hd, h⟩ := List.forall_mem_cons.mp h
      obtain ⟨middle, hfirst, hrest⟩ := addAll_cons.mp ha
      obtain ⟨placeholders, hscalars, rfl⟩ := (add_definitions hd).mp hfirst
      have hp := collectPlaceholders_eq hd hscalars
      rw [placeholderPairs, if_neg hd] at hp
      rw [ih h hrest, hp, definitionsOf_cons, scalarEntries_append, Registry.addAll_append,
        List.append_assoc]

/-- An assembly of documents of definitions. -/
theorem assemble_ofDefinitions (h : ∀ d ∈ documents, ¬annotates d) (strict : Bool) :
    (assemble (some documents) strict skip).value =
      match reservedIn? (definitionsOf documents) with
      | some name => .error (.reserved name)
      | none => .ok (.ofDefinitions (definitionsOf documents) strict) := by
  have hstops := addAll_stops skip { strict := strict } documents
  rw [findSome?_stop?_definitions h] at hstops
  cases hr : reservedIn? (definitionsOf documents) with
  | some name => exact assemble_failure.mpr (hstops.trans (by rw [hr, Option.map_some]))
  | none =>
      rw [hr, Option.map_none] at hstops
      have ha : (TypeSystem.addAll skip { strict := strict } documents).value =
        ((TypeSystem.addAll skip { strict := strict } documents).value.1, none) :=
          Prod.ext rfl hstops
      refine assemble_eq_ok.mpr ⟨_, addAll_eq_none.mp ha, ?_⟩
      rw [addAll_definitions_eq h ha, addDefaults_value]
      rfl

end Assembling

/-! ## Models that build alike -/

/-- Models that differ in definitions that are not built from, if at all. -/
structure BuildsAlike (model model' : TypeSystem) : Prop where
  placeholders : model'.placeholders = model.placeholders
  retained : model'.retained = model.retained
  leafTypes : model'.leafTypes = model.leafTypes
  entityPatterns : model'.entityPatterns = model.entityPatterns
  strict : model'.strict = model.strict

namespace BuildsAlike

variable {model model' : TypeSystem}

theorem build (h : BuildsAlike model model') : model'.build = model.build :=
  build_of_retained h.placeholders h.retained h.strict

theorem annotated (h : BuildsAlike model model') : model'.annotated = model.annotated := by
  have hattach : model'.attach = model.attach := by
    funext schema
    rw [TypeSystem.attach, TypeSystem.attach, h.leafTypes, h.entityPatterns]
  rw [TypeSystem.annotated, TypeSystem.annotated, h.build, hattach]

theorem compose (h : BuildsAlike model model') : model'.compose = model.compose := by
  rw [TypeSystem.compose, TypeSystem.compose, h.annotated]

end BuildsAlike

/-! ## Scalars that are dropped -/

/-- A scalar does not count after definitions that have a scalar of its name, or if it is built in. -/
def Needless (before : List Definition) (node : TypeNode) : Prop :=
  isBuiltinScalar node.name
    ∨ ∃ earlier ∈ before.filterMap scalarDefinition?, earlier.name = node.name

section Dropping

variable {before after : List Definition} {node : TypeNode}

theorem scalarEntries_cons (hs : node.body = .scalar) : scalarEntries (.type node :: after) =
    (if isBuiltinScalar node.name then [] else [(node.name, Placeholder.ofDefinition node)])
      ++ scalarEntries after := by
  rw [scalarEntries, List.filterMap_cons_some (scalarDefinition?_eq_some hs)]
  cases hb : isBuiltinScalar node.name <;> simp [hb, scalarEntries, Placeholder.ofDefinition]

/-- The placeholder of a scalar that does not count is there already. -/
theorem Needless.addAll_eq (h : Needless before node) (hs : node.body = .scalar) :
    ({} : Placeholders).addAll (scalarEntries (before ++ .type node :: after)) =
      ({} : Placeholders).addAll (scalarEntries (before ++ after)) := by
  rw [scalarEntries_append, scalarEntries_append, scalarEntries_cons hs, Registry.addAll_append,
    Registry.addAll_append, Registry.addAll_append]
  refine congrArg (Registry.addAll · _) (Registry.addAll_of_contains fun pair hp => ?_)
  split at hp
  · cases hp
  · rename_i hb
    obtain rfl := List.mem_singleton.mp hp
    obtain ⟨earlier, he, hname⟩ := h.resolve_left hb
    have hentry : (earlier.name, Placeholder.ofDefinition earlier) ∈ scalarEntries before :=
      List.mem_map.mpr ⟨earlier, List.mem_filter.mpr ⟨he, by simp [hname, hb]⟩, rfl⟩
    have htaken : (({} : Placeholders).addAll (scalarEntries before)).contains earlier.name :=
      Registry.contains_addAll_of_mem hentry
    rwa [hname] at htaken

/-- A scalar that does not count is not the first under a reserved name. -/
theorem Needless.reservedIn?_eq (h : Needless before node) (hs : node.body = .scalar) :
    reservedIn? (before ++ .type node :: after) = reservedIn? (before ++ after) := by
  have hcons : reservedIn? (.type node :: after) =
      (reservedIn? [.type node]).or (reservedIn? after) := reservedIn?_append [.type node] after
  rw [reservedIn?_append, reservedIn?_append, hcons]
  cases hi : isIntrospectionType node.name with
  | false =>
      have hnone : reservedIn? [.type node] = none :=
        reservedIn?_eq_none.mpr (by simp [scalarDefinition?_eq_some hs, hi])
      rw [hnone, Option.none_or]
  | true =>
      have hb : ¬isBuiltinScalar node.name := fun hb => by
        rw [not_introspection_of_builtin hb] at hi
        cases hi
      obtain ⟨earlier, he, hname⟩ := h.resolve_left hb
      cases hr : reservedIn? before with
      | some name => rfl
      | none =>
          rw [← hname, reservedIn?_eq_none.mp hr earlier he] at hi
          cases hi

end Dropping

/-- Documents from which scalars are dropped that do not count, one after the other. -/
inductive Thinned (documents : List NamedDocument) : List NamedDocument → Prop
  | none : Thinned documents documents
  | drop {before after : List NamedDocument} {document : Document} {fileName : Option String}
      {front back : List Definition} {node : TypeNode}
      (rest : Thinned documents
        (before ++ ⟨{ document with definitions := front ++ .type node :: back }, fileName⟩ :: after))
      (scalar : node.body = .scalar) (needless : Needless (definitionsOf before ++ front) node) :
      Thinned documents
        (before ++ ⟨{ document with definitions := front ++ back }, fileName⟩ :: after)

namespace Thinned

variable {documents documents' : List NamedDocument}

theorem not_annotates (h : Thinned documents documents') (hd : ∀ d ∈ documents, ¬annotates d) :
    ∀ d ∈ documents', ¬annotates d := by
  induction h with
  | none => exact hd
  | drop rest scalar needless ih =>
      obtain ⟨hbefore, hcons⟩ := List.forall_mem_append.mp ih
      obtain ⟨hfull, hafter⟩ := List.forall_mem_cons.mp hcons
      refine List.forall_mem_append.mpr ⟨hbefore, List.forall_mem_cons.mpr ⟨?_, hafter⟩⟩
      simp only [annotates, List.any_append, List.any_cons, Bool.not_eq_true,
        Bool.or_eq_false_iff] at hfull ⊢
      exact ⟨hfull.1, hfull.2.2⟩

/-- What the definitions of thinned documents are, one scalar before. -/
theorem definitionsOf_drop {before after : List NamedDocument} {document : Document}
    {fileName : Option String} (front definitions : List Definition) :
    definitionsOf (before
        ++ ⟨{ document with definitions := front ++ definitions }, fileName⟩ :: after) =
      (definitionsOf before ++ front) ++ (definitions ++ definitionsOf after) := by
  simp [definitionsOf_append, definitionsOf_cons]

theorem addAll_eq (h : Thinned documents documents') :
    ({} : Placeholders).addAll (scalarEntries (definitionsOf documents')) =
      ({} : Placeholders).addAll (scalarEntries (definitionsOf documents)) := by
  induction h with
  | none => rfl
  | drop rest scalar needless ih =>
      rw [← ih, definitionsOf_drop, definitionsOf_drop, List.cons_append,
        needless.addAll_eq scalar]

theorem withoutScalars_eq (h : Thinned documents documents') :
    withoutScalars (definitionsOf documents') = withoutScalars (definitionsOf documents) := by
  induction h with
  | none => rfl
  | drop rest scalar needless ih =>
      rw [← ih, definitionsOf_drop, definitionsOf_drop, List.cons_append, withoutScalars_append,
        withoutScalars_append (_ ++ _) (_ :: _), withoutScalars_cons_scalar scalar]

theorem reservedIn?_eq (h : Thinned documents documents') :
    reservedIn? (definitionsOf documents') = reservedIn? (definitionsOf documents) := by
  induction h with
  | none => rfl
  | drop rest scalar needless ih =>
      rw [← ih, definitionsOf_drop, definitionsOf_drop, List.cons_append,
        needless.reservedIn?_eq scalar]

theorem buildsAlike (h : Thinned documents documents')
    (hr : reservedIn? (definitionsOf documents) = .none) (strict : Bool) :
    BuildsAlike (.ofDefinitions (definitionsOf documents) strict)
      (.ofDefinitions (definitionsOf documents') strict) where
  placeholders := h.addAll_eq
  retained := by
    rw [(defines_ofDefinitions hr strict).retained,
      (defines_ofDefinitions (h.reservedIn?_eq.trans hr) strict).retained, h.withoutScalars_eq]
  leafTypes := rfl
  entityPatterns := rfl
  strict := rfl

/-- What depends on what is built from alone is the same for thinned documents. -/
theorem map_assemble {α : Type} {f : TypeSystem → α}
    (hf : ∀ model model', BuildsAlike model model' → f model' = f model)
    (h : Thinned documents documents') (hd : ∀ d ∈ documents, ¬annotates d) (strict skip : Bool) :
    (assemble (some documents') strict skip).value.map f =
      (assemble (some documents) strict skip).value.map f := by
  rw [assemble_ofDefinitions hd, assemble_ofDefinitions (h.not_annotates hd), h.reservedIn?_eq]
  cases hr : reservedIn? (definitionsOf documents) with
  | some name => rfl
  | none => exact congrArg Except.ok (hf _ _ (h.buildsAlike hr strict))

end Thinned

/-! ## Scalars of an assembled model -/

/-- The schema of a model of definitions is built from these without the definitions of scalars, for
each of which there is a placeholder unless it is built in, and all placeholders are for them. So
definitions of built-in scalars and of scalars that are defined before can be dropped from the
documents, and what is built, annotated and composed is the same, or the same failure. -/
theorem assemble_scalars {documents : List NamedDocument} (hd : ∀ d ∈ documents, ¬annotates d)
    (strict skip : Bool) :
    (∀ model, (assemble (some documents) strict skip).value = .ok model →
        model.definitions = definitionsOf documents
          ∧ model.retained = withoutScalars model.definitions
          ∧ (∀ name ∈ model.placeholders.keys,
            ∃ node ∈ model.definitions.filterMap scalarDefinition?, node.name = name)
          ∧ ∀ node ∈ model.definitions.filterMap scalarDefinition?,
            isBuiltinScalar node.name ∨ model.placeholders.contains node.name)
      ∧ ∀ documents', Thinned documents documents' →
        (assemble (some documents') strict skip).value.map TypeSystem.build =
            (assemble (some documents) strict skip).value.map TypeSystem.build
          ∧ (assemble (some documents') strict skip).value.map TypeSystem.annotated =
            (assemble (some documents) strict skip).value.map TypeSystem.annotated
          ∧ (assemble (some documents') strict skip).value.map TypeSystem.compose =
            (assemble (some documents) strict skip).value.map TypeSystem.compose := by
  refine ⟨fun model hm => ?_, fun documents' h => ⟨h.map_assemble (fun _ _ => (·.build)) hd ..,
    h.map_assemble (fun _ _ => (·.annotated)) hd .., h.map_assemble (fun _ _ => (·.compose)) hd ..⟩⟩
  have hdefines : model.Defines (definitionsOf documents) strict := by
    rw [assemble_ofDefinitions hd] at hm
    cases hr : reservedIn? (definitionsOf documents) with
    | some name =>
        rw [hr] at hm
        cases hm
    | none =>
        rw [hr] at hm
        cases hm
        exact defines_ofDefinitions hr strict
  refine ⟨hdefines.definitions, ?_, fun name hname => ?_, fun node hn => ?_⟩
  · rw [hdefines.retained, hdefines.definitions]
  · rw [Registry.keys_eq_map, hdefines.placeholders] at hname
    obtain ⟨pair, hp, rfl⟩ := List.mem_map.mp hname
    obtain ⟨node, hn, rfl⟩ := List.mem_map.mp (Registry.mem_of_mem_firstOfEach hp)
    exact ⟨node, hdefines.definitions ▸ (List.mem_filter.mp hn).1, rfl⟩
  · rw [hdefines.definitions] at hn
    cases hb : isBuiltinScalar node.name with
    | true => exact .inl rfl
    | false => exact .inr (hdefines.contains_placeholders hn hb)

def amountScalar : TypeNode := ⟨some ⟨"An amount", false⟩, "Amount", [], .scalar⟩

def priceObject : TypeNode :=
  ⟨none, "Query", [], .object [] [⟨none, "price", [], .named "Amount", []⟩]⟩

/-- The scalar, and in another document the object that uses it before other definitions. -/
def amountThen (definitions : List Definition) : List NamedDocument :=
  [⟨⟨[.type amountScalar], none⟩, none⟩, ⟨⟨.type priceObject :: definitions, none⟩, none⟩]

/-- A built-in scalar and the first scalar again, without its description. -/
def repeatedScalars : List NamedDocument :=
  amountThen [.type ⟨none, "Int", [], .scalar⟩, .type ⟨none, "Amount", [], .scalar⟩]

theorem assemble_scalars_repeated : (∀ d ∈ repeatedScalars, ¬annotates d)
    ∧ Thinned repeatedScalars (amountThen [])
    ∧ (assemble (some (amountThen []))).value.map TypeSystem.compose =
      (assemble (some repeatedScalars)).value.map TypeSystem.compose := by
  have hd : ∀ d ∈ repeatedScalars, ¬annotates d := by decide
  have hamount : Thinned repeatedScalars (amountThen [.type ⟨none, "Int", [], .scalar⟩]) :=
    @Thinned.drop _ [⟨⟨[.type amountScalar], none⟩, none⟩] [] ⟨[], none⟩ none
      [.type priceObject, .type ⟨none, "Int", [], .scalar⟩] [] _ .none rfl
      (.inr ⟨amountScalar, List.mem_cons_self, rfl⟩)
  have hint : Thinned repeatedScalars (amountThen []) :=
    @Thinned.drop _ [⟨⟨[.type amountScalar], none⟩, none⟩] [] ⟨[], none⟩ none
      [.type priceObject] [] _ hamount rfl (.inl rfl)
  exact ⟨hd, hint, ((assemble_scalars hd true false).2 _ hint).2.2⟩

end SdlAssembly.Model
