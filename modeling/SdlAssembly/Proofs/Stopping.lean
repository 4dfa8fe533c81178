import SdlAssembly.Proofs.RejectedKeys

/-!
# What stops an assembly

A document stops an assembly for a reason of its own, whatever was assembled before it: by its first
key that is refused, or by its first scalar under a reserved name. The first document that has such
a reason decides how the assembly fails, and without one there is a model.
-/

namespace SdlAssembly.Model

open Grammar Documents Annotation Schemas

/-- The scalars that a document defines. -/
def scalarsOf (d : NamedDocument) : List TypeNode :=
  d.document.definitions.filterMap scalarDefinition?

/-- What the first refused key of a document is refused for. -/
def keyFailure? (d : NamedDocument) : Option KeyFailure :=
  (placedKeys d).findSome? PlacedKey.failure?

/-- The first scalar of a document that takes a reserved name. -/
def reservedScalar? (d : NamedDocument) : Option ReservedName :=
  ((scalarsOf d).find? fun node => isIntrospectionType node.name).map (⟨·.name⟩)

/-- What a document stops an assembly for, if it does. -/
def stop? (skip : Bool) (d : NamedDocument) : Option AssemblyFailure :=
  if annotates d then if skip then none else (keyFailure? d).map .key
  else (reservedScalar? d).map .reserved

/-- The reasons for which a document stops an assembly. -/
inductive Stops (skip : Bool) (d : NamedDocument) : AssemblyFailure → Prop
  /-- A key of an annotation document is no selection set. -/
  | rejected {before after : List PlacedKey} {key : PlacedKey} {cause : SyntaxError}
      (annotates : annotates d) (read : skip = false) (split : placedKeys d = before ++ key :: after)
      (accepted : ∀ earlier ∈ before, earlier.Accepted) (rejected : key.RejectedFor cause) :
      Stops skip d (.key (.invalid (key.error cause)))
  /-- A key of an annotation document is nested too deeply to be read. -/
  | tooDeep {before after : List PlacedKey} {key : PlacedKey}
      (annotates : annotates d) (read : skip = false) (split : placedKeys d = before ++ key :: after)
      (accepted : ∀ earlier ∈ before, earlier.Accepted) (deep : key.TooDeep) :
      Stops skip d (.key .nestedTooDeep)
  /-- A scalar of a definition document takes the name of an introspection type. -/
  | reserved {before after : List TypeNode} {node : TypeNode}
      (defines : ¬annotates d) (split : scalarsOf d = before ++ node :: after)
      (free : ∀ earlier ∈ before, isIntrospectionType earlier.name = false)
      (reserved : isIntrospectionType node.name) : Stops skip d (.reserved ⟨node.name⟩)

/-- The first of the documents that stops an assembly does so with this failure. -/
def StopsFirst (skip : Bool) (documents : List NamedDocument) (failure : AssemblyFailure) : Prop :=
  ∃ front d back, documents = front ++ d :: back
    ∧ (∀ earlier ∈ front, ∀ reason, ¬Stops skip earlier reason) ∧ Stops skip d failure

/-! ## The reason of a document -/

theorem PlacedKey.failure?_eq_none {key : PlacedKey} : key.failure? = none ↔ key.Accepted := by
  unfold PlacedKey.failure? PlacedKey.Accepted
  cases parseSelectionSet key.fields with
  | ok set => simp
  | error failure => cases failure <;> simp

theorem PlacedKey.failure?_eq_invalid {key : PlacedKey} {e : KeyError} :
    key.failure? = some (.invalid e) ↔ ∃ cause, key.RejectedFor cause ∧ key.error cause = e := by
  unfold PlacedKey.failure? PlacedKey.RejectedFor
  cases parseSelectionSet key.fields with
  | ok set => simp
  | error failure => cases failure <;> simp

theorem PlacedKey.failure?_eq_nestedTooDeep {key : PlacedKey} :
    key.failure? = some .nestedTooDeep ↔ key.TooDeep := by
  unfold PlacedKey.failure? PlacedKey.TooDeep
  cases parseSelectionSet key.fields with
  | ok set => simp
  | error failure => cases failure <;> simp

theorem keyFailure?_eq_some {d : NamedDocument} {failure : KeyFailure} :
    keyFailure? d = some failure ↔ ∃ before key after, placedKeys d = before ++ key :: after
      ∧ (∀ earlier ∈ before, earlier.Accepted) ∧ key.failure? = some failure := by
  simp only [keyFailure?, List.findSome?_eq_some_iff, PlacedKey.failure?_eq_none]
  constructor
  · rintro ⟨before, key, after, hs, hf, ha⟩
    exact ⟨before, key, after, hs, ha, hf⟩
  · rintro ⟨before, key, after, hs, ha, hf⟩
    exact ⟨before, key, after, hs, hf, ha⟩

theorem reservedScalar?_eq_none {d : NamedDocument} :
    reservedScalar? d = none ↔ ∀ node ∈ scalarsOf d, isIntrospectionType node.name = false := by
  simp [reservedScalar?]

theorem reservedScalar?_eq_some {d : NamedDocument} {name : ReservedName} :
    reservedScalar? d = some name ↔ ∃ before node after, scalarsOf d = before ++ node :: after
      ∧ (∀ earlier ∈ before, isIntrospectionType earlier.name = false)
      ∧ isIntrospectionType node.name ∧ ⟨node.name⟩ = name := by
  simp only [reservedScalar?, Option.map_eq_some_iff, List.find?_eq_some_iff_append]
  constructor
  · rintro ⟨node, ⟨hr, before, after, hs, hf⟩, hn⟩
    exact ⟨before, node, after, hs, fun earlier hm => by simpa using hf earlier hm, hr, hn⟩
  · rintro ⟨before, node, after, hs, hf, hr, hn⟩
    exact ⟨node, ⟨hr, before, after, hs, fun earlier hm => by simp [hf earlier hm]⟩, hn⟩

theorem stop?_eq_some {skip : Bool} {d : NamedDocument} {failure : AssemblyFailure} :
    stop? skip d = some failure ↔ Stops skip d failure := by
  constructor
  · intro h
    unfold stop? at h
    split at h
    · rename_i ha
      cases skip with
      | true => cases h
      | false =>
          obtain ⟨reason, hk, rfl⟩ := Option.map_eq_some_iff.mp h
          obtain ⟨before, key, after, hs, hb, hf⟩ := keyFailure?_eq_some.mp hk
          cases reason with
          | invalid e =>
              obtain ⟨cause, hr, rfl⟩ := PlacedKey.failure?_eq_invalid.mp hf
              exact .rejected ha rfl hs hb hr
          | nestedTooDeep =>
              exact .tooDeep ha rfl hs hb (PlacedKey.failure?_eq_nestedTooDeep.mp hf)
    · rename_i ha
      obtain ⟨name, hn, rfl⟩ := Option.map_eq_some_iff.mp h
      obtain ⟨before, node, after, hs, hf, hr, rfl⟩ := reservedScalar?_eq_some.mp hn
      exact .reserved ha hs hf hr
  · intro h
    unfold stop?
    cases h with
    | @rejected before after key cause ha hs hk hb hr =>
        subst hs
        have hf := PlacedKey.failure?_eq_invalid.mpr ⟨cause, hr, rfl⟩
        simp [ha, keyFailure?_eq_some.mpr ⟨before, key, after, hk, hb, hf⟩]
    | @tooDeep before after key ha hs hk hb hd =>
        subst hs
        have hf := PlacedKey.failure?_eq_nestedTooDeep.mpr hd
        simp [ha, keyFailure?_eq_some.mpr ⟨before, key, after, hk, hb, hf⟩]
    | @reserved before after node ha hs hf hr =>
        simp [ha, reservedScalar?_eq_some.mpr ⟨before, node, after, hs, hf, hr, rfl⟩]

theorem stop?_eq_none {skip : Bool} {d : NamedDocument} :
    stop? skip d = none ↔ ∀ reason, ¬Stops skip d reason := by
  simp only [← stop?_eq_some]
  cases stop? skip d <;> simp

/-- A document has no reason to stop an assembly if its keys are accepted, where they are read, and
its scalars take no reserved name. -/
theorem stop?_eq_none_iff {skip : Bool} {d : NamedDocument} : stop? skip d = none ↔
    ¬DefinesReserved d ∧ (skip = true ∨ ∀ key ∈ placedKeys d, key.Accepted) := by
  unfold stop?
  by_cases ha : annotates d
  · have hr : ¬DefinesReserved d := fun h => h.1 ha
    cases skip with
    | true => simp [ha, hr]
    | false => simp [ha, hr, keyFailure?, PlacedKey.failure?_eq_none]
  · have hk := placedKeys_of_not_annotates ha
    have hr : DefinesReserved d ↔ ∃ node ∈ scalarsOf d, isIntrospectionType node.name :=
      and_iff_right ha
    simp [ha, hk, hr, reservedScalar?_eq_none]

theorem findSome?_stop?_eq_none {skip : Bool} {documents : List NamedDocument} :
    documents.findSome? (stop? skip) = none ↔ (∀ d ∈ documents, ¬DefinesReserved d)
      ∧ (skip = true ∨ ∀ key ∈ keysOf documents, key.Accepted) := by
  simp only [List.findSome?_eq_none_iff, stop?_eq_none_iff]
  constructor
  · intro h
    refine ⟨fun d hd => (h d hd).1, ?_⟩
    cases skip with
    | true => exact .inl rfl
    | false =>
        refine .inr fun key hkey => ?_
        obtain ⟨d, hd, hk⟩ := List.mem_flatMap.mp hkey
        have hkeys := (h d (List.mem_filter.mp hd).1).2.resolve_left Bool.false_ne_true
        exact hkeys key hk
  · rintro ⟨hr, hk⟩ d hd
    exact ⟨hr d hd, hk.imp_right fun hk key hkey => hk key (mem_keysOf hd hkey)⟩

theorem stopsFirst_iff {skip : Bool} {documents : List NamedDocument} {failure : AssemblyFailure} :
    StopsFirst skip documents failure ↔ documents.findSome? (stop? skip) = some failure := by
  simp only [StopsFirst, List.findSome?_eq_some_iff, stop?_eq_some, stop?_eq_none]
  constructor
  · rintro ⟨front, d, back, hs, hf, hd⟩
    exact ⟨front, d, back, hs, hd, hf⟩
  · rintro ⟨front, d, back, hs, hd, hf⟩
    exact ⟨front, d, back, hs, hf, hd⟩

/-! ## One document -/

/-- Keys are collected up to the first that is refused. -/
theorem collectKeys_failure {fileName : Option String} {keys : List ConsultedKey}
    {placed : List PlacedKey}
    (hk : keys.filterMap (fun key => key.fields.map (⟨·, key.scope, fileName⟩)) = placed)
    (patterns : EntityPatterns) :
    (collectKeys fileName keys patterns).value.2 = placed.findSome? PlacedKey.failure? := by
  subst hk
  induction keys generalizing patterns with
  | nil => rfl
  | cons key rest ih =>
      obtain ⟨scope, fields⟩ := key
      unfold collectKeys
      cases fields with
      | none =>
          rw [Logged.value_andThen, noteUnusable_value]
          exact ih patterns
      | some fields =>
          simp only [List.filterMap_cons, Option.map_some, List.findSome?_cons, parseKey,
            PlacedKey.failure?]
          cases parseSelectionSet fields with
          | ok set =>
              simp only [Logged.value_andThen, Logged.value_note]
              exact ih (patterns.add scope set)
          | error failure => cases failure <;> rfl

/-- Scalars are registered up to the first under a reserved name. -/
theorem registerScalars_stops (nodes : List TypeNode) (placeholders : Placeholders) :
    (registerScalars nodes placeholders).value.2 =
      (nodes.find? fun node => isIntrospectionType node.name).map (⟨·.name⟩) := by
  induction nodes generalizing placeholders with
  | nil => rfl
  | cons node rest ih =>
      unfold registerScalars
      split
      · rename_i hb
        simp [ih, not_introspection_of_builtin hb]
      · split
        · rename_i hi
          simp [hi]
        · rename_i hi
          simp [ih, hi]

theorem add_stops (skip : Bool) (model : TypeSystem) (d : NamedDocument) :
    (model.add skip d).value.2 = stop? skip d := by
  unfold TypeSystem.add stop?
  rw [Logged.value_andThen]
  cases hkind : DocumentKind.ofDocument d.document with
  | annotations =>
      rw [if_pos (annotates_iff.mpr hkind)]
      cases skip with
      | true => rfl
      | false =>
          have hk := collectKeys_failure (placed_consultedKeys d)
            (model.addLeafTypes d.document).value.entityPatterns
          exact congrArg (Option.map _) hk
  | definitions =>
      have ha : ¬annotates d := fun ha => by
        rw [annotates_iff.mp ha] at hkind
        cases hkind
      rw [if_neg ha]
      exact (define_failure model d.document).trans
        (congrArg (Option.map _) (registerScalars_stops _ model.placeholders))

/-! ## All documents -/

theorem addAll_stops (skip : Bool) (model : TypeSystem) (documents : List NamedDocument) :
    (TypeSystem.addAll skip model documents).value.2 = documents.findSome? (stop? skip) := by
  induction documents generalizing model with
  | nil => rfl
  | cons d rest ih =>
      rw [TypeSystem.addAll, Logged.value_andThen, List.findSome?_cons, ← add_stops skip model d]
      obtain ⟨middle, failure⟩ := (model.add skip d).value
      cases failure with
      | none => exact ih middle
      | some failure => rfl

/-- A model is made of documents that have no reason to stop. -/
theorem assemble_ok {documents : List NamedDocument} {strict skip : Bool} :
    (∃ model, (assemble (some documents) strict skip).value = .ok model) ↔
      documents.findSome? (stop? skip) = none := by
  rw [← addAll_stops skip { strict := strict }]
  unfold assemble
  rw [Logged.value_andThen]
  obtain ⟨model, stopped⟩ := (TypeSystem.addAll skip { strict := strict } documents).value
  cases stopped <;> simp [Logged.value_andThen]

/-- An assembly of any documents fails as the first that stops it does, and makes a model if the
keys that are read are selection sets and no scalar takes a reserved name. Beside a model and a key
that is no selection set there are two more ends: a key that is nested too deeply, and a scalar
under a reserved name. -/
theorem assemble_outcomes (documents : List NamedDocument) (strict skip : Bool) :
    (∀ failure, (assemble (some documents) strict skip).value = .error failure ↔
        StopsFirst skip documents failure)
      ∧ ((∃ model, (assemble (some documents) strict skip).value = .ok model) ↔
        (∀ d ∈ documents, ¬DefinesReserved d)
          ∧ (skip = true ∨ ∀ key ∈ keysOf documents, key.Accepted))
      ∧ ((∃ model, (assemble (some documents) strict skip).value = .ok model)
          ∨ (∃ e, (assemble (some documents) strict skip).value = .error (.key (.invalid e))) ↔
        ¬StopsFirst skip documents (.key .nestedTooDeep)
          ∧ ∀ name, ¬StopsFirst skip documents (.reserved name)) := by
  have herror : ∀ failure, (assemble (some documents) strict skip).value = .error failure ↔
      StopsFirst skip documents failure := fun failure => by
    rw [assemble_failure, addAll_stops, stopsFirst_iff]
  refine ⟨herror, assemble_ok.trans findSome?_stop?_eq_none, ?_⟩
  rw [assemble_ok]
  simp only [herror]
  cases hf : documents.findSome? (stop? skip) with
  | none => simp [stopsFirst_iff, hf]
  | some failure =>
      obtain ⟨_, d, _, -, -, hs⟩ := stopsFirst_iff.mpr hf
      simp only [stopsFirst_iff, hf]
      cases hs <;> simp

/-- An argument that opens more lists than can be read. -/
def deepFields : String :=
  String.ofList ("a(x: ".toList ++ List.replicate 200 '[')

/-- A scalar under a reserved name, or a key that is nested too deeply, is all it takes. -/
theorem assemble_escapes :
    (assemble (some [⟨⟨[.type ⟨none, "__Type", [], .scalar⟩], none⟩, none⟩]) true false).value =
        .error (.reserved ⟨"__Type"⟩)
      ∧ (assemble (some [⟨⟨[.schemaExtension
          ⟨none, [⟨"key", [⟨"fields", .string deepFields false, none⟩], none⟩], []⟩],
            none⟩, none⟩]) true false).value = .error (.key .nestedTooDeep) :=
  ⟨assemble_failure.mpr (by decide), assemble_failure.mpr (by decide +kernel)⟩

end SdlAssembly.Model
