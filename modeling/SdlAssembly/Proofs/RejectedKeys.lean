import SdlAssembly.Proofs.Merge

/-!
# The first rejected key

Keys are collected in order up to the first that is no selection set. What was collected before it
stays, and an assembly fails for the same reason, unless a scalar under a reserved name has stopped
it before.
-/

namespace SdlAssembly.Model

open Grammar Documents Annotation Schemas

/-! ## Keys in their places -/

/-- The text of a usable key, what it is written on, and the document it is in. -/
structure PlacedKey where
  fields : String
  scope : KeyScope
  fileName : Option String

namespace PlacedKey

def Accepted (key : PlacedKey) : Prop := ∃ set, parseSelectionSet key.fields = .ok set

def RejectedFor (key : PlacedKey) (cause : SyntaxError) : Prop :=
  parseSelectionSet key.fields = .error (.rejected cause)

def TooDeep (key : PlacedKey) : Prop := parseSelectionSet key.fields = .error .nestedTooDeep

instance (key : PlacedKey) : Decidable key.TooDeep :=
  match h : parseSelectionSet key.fields with
  | .ok _ => isFalse (by simp [TooDeep, h])
  | .error (.rejected _) => isFalse (by simp [TooDeep, h])
  | .error .nestedTooDeep => isTrue h

/-- What is told of a rejected key. -/
def error (key : PlacedKey) (cause : SyntaxError) : KeyError :=
  ⟨key.fields, key.scope.text, key.fileName, cause⟩

def global? (key : PlacedKey) : Option String :=
  match key.scope with
  | .schema => some key.fields
  | .type _ => none

def typed? (key : PlacedKey) : Option (String × String) :=
  match key.scope with
  | .schema => none
  | .type name => some (name, key.fields)

end PlacedKey

/-- The usable keys of a document: all of its schema extensions, then the first of each extension
of an object type. -/
def placedKeys (d : NamedDocument) : List PlacedKey :=
  (globalKeys d.document.definitions).map (⟨·, .schema, d.displayName⟩)
    ++ (typeKeys d.document.definitions).map fun key => ⟨key.2, .type key.1, d.displayName⟩

/-- The usable keys of the annotation documents, one document after the other. -/
def keysOf (documents : List NamedDocument) : List PlacedKey :=
  (documents.filter annotates).flatMap placedKeys

/-- Whether a definition document defines a scalar under a name that is reserved. -/
def DefinesReserved (d : NamedDocument) : Prop :=
  ¬annotates d ∧ ∃ node ∈ d.document.definitions.filterMap scalarDefinition?,
    isIntrospectionType node.name

/-- Patterns to which keys were added, each of them accepted. -/
def Produces (patterns : EntityPatterns) (keys : List PlacedKey) (patterns' : EntityPatterns) :
    Prop :=
  CollectsKeys patterns (keys.filterMap PlacedKey.global?) (keys.filterMap PlacedKey.typed?)
    patterns'

/-- How the collection of keys may end. -/
inductive Collection (patterns : EntityPatterns) (keys : List PlacedKey) :
    EntityPatterns × Option KeyFailure → Prop
  | finished {patterns' : EntityPatterns} (accepted : ∀ key ∈ keys, key.Accepted)
      (produced : Produces patterns keys patterns') : Collection patterns keys (patterns', none)
  | stopped {before after : List PlacedKey} {key : PlacedKey} {cause : SyntaxError}
      {patterns' : EntityPatterns} (split : keys = before ++ key :: after)
      (accepted : ∀ key ∈ before, key.Accepted) (rejected : key.RejectedFor cause)
      (produced : Produces patterns before patterns') :
      Collection patterns keys (patterns', some (.invalid (key.error cause)))

/-! ## Adding to what was produced -/

theorem CollectsKeys.append {patterns middle patterns' : EntityPatterns}
    {globals globals' : List String} {types types' : List (String × String)}
    (h : CollectsKeys patterns globals types middle)
    (h' : CollectsKeys middle globals' types' patterns') :
    CollectsKeys patterns (globals ++ globals') (types ++ types') patterns' := by
  obtain ⟨hg, sets, hs, ht⟩ := h
  obtain ⟨hg', sets', hs', ht'⟩ := h'
  refine ⟨by rw [hg', hg, List.map_append, List.append_assoc], sets ++ sets', ?_, ?_⟩
  · rw [List.map_append, List.map_append, hs, hs']
  · rw [ht', ht, Registry.addAll_append]

theorem Produces.nil (patterns : EntityPatterns) : Produces patterns [] patterns :=
  ⟨by simp, [], rfl, rfl⟩

theorem Produces.append {patterns middle patterns' : EntityPatterns} {keys keys' : List PlacedKey}
    (h : Produces patterns keys middle) (h' : Produces middle keys' patterns') :
    Produces patterns (keys ++ keys') patterns' := by
  unfold Produces
  rw [List.filterMap_append, List.filterMap_append]
  exact CollectsKeys.append h h'

/-- One accepted key adds its pattern. -/
theorem produces_add {patterns : EntityPatterns} {key : PlacedKey} {set : SelectionSet}
    (h : parseSelectionSet key.fields = .ok set) :
    Produces patterns [key] (patterns.add key.scope set) := by
  obtain ⟨fields, scope, fileName⟩ := key
  cases scope with
  | schema =>
      refine ⟨?_, [], rfl, rfl⟩
      simpa [EntityPatterns.add, PlacedKey.global?] using h.symm
  | type name =>
      refine ⟨by simp [EntityPatterns.add, PlacedKey.global?], [(name, set)], ?_, rfl⟩
      simpa [PlacedKey.typed?] using h.symm

/-- A collection that goes on after keys that are all accepted. -/
theorem Collection.after {patterns middle : EntityPatterns} {keys keys' : List PlacedKey}
    {result : EntityPatterns × Option KeyFailure} (hk : ∀ key ∈ keys, key.Accepted)
    (hp : Produces patterns keys middle) (h : Collection middle keys' result) :
    Collection patterns (keys ++ keys') result := by
  cases h with
  | finished ha hp' =>
      exact .finished (fun key hm => (List.mem_append.mp hm).elim (hk key) (ha key))
        (hp.append hp')
  | @stopped before after key cause patterns' hs ha hr hp' =>
      have hsplit : keys ++ keys' = (keys ++ before) ++ key :: after := by
        rw [hs, List.append_assoc]
      exact .stopped hsplit (fun key hm => (List.mem_append.mp hm).elim (hk key) (ha key)) hr
        (hp.append hp')

/-- A collection that has stopped stays so, whatever comes later. -/
theorem Collection.before {patterns patterns' : EntityPatterns} {keys : List PlacedKey}
    {failure : KeyFailure} (later : List PlacedKey)
    (h : Collection patterns keys (patterns', some failure)) :
    Collection patterns (keys ++ later) (patterns', some failure) := by
  cases h with
  | @stopped before after key cause _ hs ha hr hp =>
      have hsplit : keys ++ later = before ++ key :: (after ++ later) := by
        rw [hs, List.append_assoc, List.cons_append]
      exact .stopped hsplit ha hr hp

/-! ## Collecting -/

theorem placed_consultedKeys (d : NamedDocument) :
    (consultedKeys d.document).filterMap (fun key =>
      key.fields.map (⟨·, key.scope, d.displayName⟩)) = placedKeys d := by
  have hs : ∀ node : SchemaNode, (schemaKeys node).filterMap (fun key =>
      key.fields.map fun fields => (⟨fields, key.scope, d.displayName⟩ : PlacedKey)) =
      ((node.directives.filter fun x => x.name == "key").filterMap usableKey?).map
        (⟨·, .schema, d.displayName⟩) := by
    intro node
    simp only [schemaKeys, List.filterMap_map, Function.comp_def, usableKey?_eq,
      List.map_filterMap]
    rfl
  have ht : ∀ node : TypeNode, (typeKey? node).bind (fun key =>
      key.fields.map fun fields => (⟨fields, key.scope, d.displayName⟩ : PlacedKey)) =
      ((node.directives.find? fun x => x.name == "key").bind fun first =>
        (usableKey? first).bind fun text => some (node.name, text)).map
          fun key => ⟨key.2, .type key.1, d.displayName⟩ := by
    intro node
    unfold typeKey? firstDirective? keyDirective
    cases node.directives.find? fun x => x.name == "key" with
    | none => rfl
    | some first =>
        rw [Option.map_some, Option.bind_some, Option.bind_some, usableKey?_eq]
        cases usableKey? first <;> rfl
  rw [consultedKeys, schemaExtensions_eq, typesIn_eq (fun x => (inRole?_eq x).2.2.2),
    List.filterMap_append, List.filterMap_flatMap, funext hs, List.filterMap_filterMap, funext ht,
    placedKeys, globalKeys, typeKeys, List.map_flatMap, List.map_filterMap]
  rfl

/-- Keys that are collected one after the other. -/
theorem collectKeys_collection {fileName : Option String} {keys : List ConsultedKey}
    {placed : List PlacedKey}
    (hk : keys.filterMap (fun key => key.fields.map (⟨·, key.scope, fileName⟩)) = placed)
    (hd : ∀ key ∈ placed, ¬key.TooDeep) (patterns : EntityPatterns) :
    Collection patterns placed (collectKeys fileName keys patterns).value := by
  subst hk
  induction keys generalizing patterns with
  | nil => exact .finished (by simp) (.nil patterns)
  | cons key rest ih =>
      obtain ⟨scope, fields⟩ := key
      unfold collectKeys
      cases fields with
      | none =>
          simp only [Logged.value_andThen, noteUnusable_value]
          exact ih patterns hd
      | some fields =>
          have hrest := fun patterns =>
            ih patterns fun key hm => hd key (List.mem_cons_of_mem _ hm)
          have hfirst : ¬PlacedKey.TooDeep ⟨fields, scope, fileName⟩ := hd _ (List.mem_cons_self ..)
          cases hp : parseSelectionSet fields with
          | ok set =>
              have hk : parseKey fields scope.text fileName = .ok set := parseKey_ok.mpr hp
              simp only [hk, Logged.value_andThen, Logged.value_note]
              let key : PlacedKey := ⟨fields, scope, fileName⟩
              have ha : ∀ k ∈ [key], k.Accepted := by simpa using ⟨set, hp⟩
              have hadd : Produces patterns [key] (patterns.add scope set) := produces_add hp
              exact .after ha hadd (hrest (patterns.add scope set))
          | error failure =>
              cases failure with
              | nestedTooDeep => exact (hfirst hp).elim
              | rejected cause =>
                  have hk : parseKey fields scope.text fileName =
                      .error (.invalid ⟨fields, scope.text, fileName, cause⟩) := by
                    rw [parseKey, hp]
                  simp only [hk]
                  let key : PlacedKey := ⟨fields, scope, fileName⟩
                  have hr : key.RejectedFor cause := hp
                  have hb : ∀ k ∈ ([] : List PlacedKey), k.Accepted := by simp
                  exact .stopped rfl hb hr (.nil patterns)

theorem collectEntityPatterns_collection {d : NamedDocument}
    (hd : ∀ key ∈ placedKeys d, ¬key.TooDeep) (patterns : EntityPatterns) :
    Collection patterns (placedKeys d) (collectEntityPatterns patterns d).value :=
  collectKeys_collection (placed_consultedKeys d) hd patterns

/-- A document without extensions has no keys. -/
theorem placedKeys_of_not_annotates {d : NamedDocument} (h : ¬annotates d) : placedKeys d = [] := by
  have hx : ∀ x ∈ d.document.definitions, isExtension x = false := by
    simpa [annotates] using h
  have hs : d.document.definitions.filterMap schemaExtension? = [] := by
    refine List.filterMap_eq_nil_iff.mpr fun x hm => ?_
    cases x with
    | schemaExtension node => cases hx _ hm
    | _ => rfl
  have ho : d.document.definitions.filterMap objectExtension? = [] := by
    refine List.filterMap_eq_nil_iff.mpr fun x hm => ?_
    cases x with
    | typeExtension node => cases hx _ hm
    | _ => rfl
  simp [placedKeys, globalKeys, typeKeys, hs, ho]

theorem keysOf_cons (d : NamedDocument) (rest : List NamedDocument) :
    keysOf (d :: rest) = placedKeys d ++ keysOf rest := by
  unfold keysOf
  by_cases h : annotates d
  · simp [h]
  · simp [h, placedKeys_of_not_annotates h]

theorem mem_keysOf {d : NamedDocument} {documents : List NamedDocument} (hd : d ∈ documents)
    {key : PlacedKey} (hk : key ∈ placedKeys d) : key ∈ keysOf documents := by
  by_cases ha : annotates d
  · exact List.mem_flatMap.mpr ⟨d, List.mem_filter.mpr ⟨hd, ha⟩, hk⟩
  · rw [placedKeys_of_not_annotates ha] at hk
    cases hk

/-- A collection that finds all keys accepted goes on from what it produced. -/
theorem Collection.of_none {patterns patterns' : EntityPatterns} {keys : List PlacedKey}
    (h : Collection patterns keys (patterns', none)) :
    (∀ key ∈ keys, key.Accepted) ∧ Produces patterns keys patterns' := by
  cases h with
  | finished ha hp => exact ⟨ha, hp⟩

theorem collectAllEntityPatterns_collection {documents : List NamedDocument}
    (hd : ∀ key ∈ keysOf documents, ¬key.TooDeep) (patterns : EntityPatterns) :
    Collection patterns (keysOf documents) (collectAllEntityPatterns patterns documents).value := by
  induction documents generalizing patterns with
  | nil => exact .finished (by simp [keysOf]) (.nil patterns)
  | cons d rest ih =>
      rw [keysOf_cons] at hd ⊢
      have hfirst := collectEntityPatterns_collection
        (fun key hm => hd key (List.mem_append_left _ hm)) patterns
      have hrest := fun patterns => ih (fun key hm => hd key (List.mem_append_right _ hm)) patterns
      unfold collectAllEntityPatterns
      rw [Logged.value_andThen]
      generalize (collectEntityPatterns patterns d).value = result at hfirst
      obtain ⟨middle, failure⟩ := result
      cases failure with
      | none => exact .after hfirst.of_none.1 hfirst.of_none.2 (hrest middle)
      | some failure => exact hfirst.before _

/-! ## The first of the rejected keys -/

/-- The failure of a key that is not accepted. -/
def PlacedKey.failure? (key : PlacedKey) : Option KeyFailure :=
  match parseSelectionSet key.fields with
  | .ok _ => none
  | .error (.rejected cause) => some (.invalid (key.error cause))
  | .error .nestedTooDeep => some .nestedTooDeep

theorem PlacedKey.Accepted.failure? {key : PlacedKey} (h : key.Accepted) : key.failure? = none := by
  obtain ⟨set, hs⟩ := h
  rw [PlacedKey.failure?, hs]

theorem PlacedKey.RejectedFor.failure? {key : PlacedKey} {cause : SyntaxError}
    (h : key.RejectedFor cause) : key.failure? = some (.invalid (key.error cause)) := by
  unfold PlacedKey.RejectedFor at h
  rw [PlacedKey.failure?, h]

/-- The failure of a collection is that of the first key that has one. -/
theorem Collection.failure_eq {patterns patterns' : EntityPatterns} {keys : List PlacedKey}
    {failure : Option KeyFailure} (h : Collection patterns keys (patterns', failure)) :
    failure = keys.findSome? PlacedKey.failure? := by
  cases h with
  | finished ha hp =>
      exact (List.findSome?_eq_none_iff.mpr fun key hm => (ha key hm).failure?).symm
  | @stopped before after key cause _ hs ha hr hp =>
      have hb : before.findSome? PlacedKey.failure? = none :=
        List.findSome?_eq_none_iff.mpr fun key hm => (ha key hm).failure?
      rw [hs, List.findSome?_append, hb, Option.none_or, List.findSome?_cons, hr.failure?]

/-! ## Assembly -/

theorem not_introspection_of_builtin {name : String} (h : isBuiltinScalar name) :
    isIntrospectionType name = false := by
  have hall : ∀ n ∈ builtinScalars, isIntrospectionType n = false := by decide
  exact hall name (by simpa [isBuiltinScalar] using h)

theorem registerScalars_failure (nodes : List TypeNode) (placeholders : Placeholders) :
    (registerScalars nodes placeholders).value.2 = none ↔
      ∀ node ∈ nodes, isIntrospectionType node.name = false := by
  induction nodes generalizing placeholders with
  | nil => simp [registerScalars]
  | cons node rest ih =>
      unfold registerScalars
      split
      · rename_i hb
        simp [ih, not_introspection_of_builtin hb]
      · split
        · rename_i hi
          simp [hi]
        · rename_i hi
          simp [ih, hi]

theorem define_failure (model : TypeSystem) (document : Document) :
    (model.define document).value.2 =
      (registerScalars (document.definitions.filterMap scalarDefinition?)
        model.placeholders).value.2.map .reserved := by
  simp only [TypeSystem.define, TypeSystem.addPlaceholders, Logged.value_map, collectPlaceholders,
    typesIn_eq fun x => (inRole?_eq x).1]
  cases (registerScalars (document.definitions.filterMap scalarDefinition?)
    model.placeholders).value.2 <;> rfl

/-- What a document with accepted keys does to an assembly: only a reserved name stops it. -/
theorem add_failure {d : NamedDocument} (hk : ∀ key ∈ placedKeys d, key.Accepted)
    (model : TypeSystem) :
    (¬DefinesReserved d ∧ (model.add false d).value.2 = none) ∨
      DefinesReserved d ∧ ∃ name, (model.add false d).value.2 = some (.reserved name) := by
  simp only [TypeSystem.add, Logged.value_andThen]
  cases hkind : DocumentKind.ofDocument d.document with
  | annotations =>
      have ha : annotates d := annotates_iff.mpr hkind
      refine .inl ⟨fun h => h.1 ha, ?_⟩
      have hd : ∀ key ∈ placedKeys d, ¬key.TooDeep := by
        intro key hm ht
        obtain ⟨set, hs⟩ := hk key hm
        rw [PlacedKey.TooDeep, hs] at ht
        cases ht
      have hc := (collectEntityPatterns_collection hd
        (model.addLeafTypes d.document).value.entityPatterns).failure_eq
      rw [List.findSome?_eq_none_iff.mpr fun key hm => (hk key hm).failure?] at hc
      simp [TypeSystem.annotate, TypeSystem.addEntityPatterns, hc]
  | definitions =>
      have ha : ¬annotates d := fun ha => by
        rw [annotates_iff.mp ha] at hkind
        cases hkind
      have hreserved : DefinesReserved d ↔ ¬∀ node ∈ d.document.definitions.filterMap
          scalarDefinition?, isIntrospectionType node.name = false := by
        simp [DefinesReserved, ha, -List.mem_filterMap]
      rw [define_failure, hreserved, ← registerScalars_failure _ model.placeholders]
      cases (registerScalars (d.document.definitions.filterMap scalarDefinition?)
        model.placeholders).value.2 with
      | none => exact .inl ⟨by simp, rfl⟩
      | some name => exact .inr ⟨by simp, name, rfl⟩

/-- An assembly goes on after documents that did not stop it. -/
theorem addAll_append (skip : Bool) (model : TypeSystem) (front rest : List NamedDocument) :
    (TypeSystem.addAll skip model (front ++ rest)).value =
      match (TypeSystem.addAll skip model front).value with
      | (model, none) => (TypeSystem.addAll skip model rest).value
      | failed => failed := by
  induction front generalizing model with
  | nil => rfl
  | cons d front ih =>
      simp only [List.cons_append, TypeSystem.addAll, Logged.value_andThen]
      cases (model.add skip d).value with
      | mk middle failure =>
          cases failure with
          | none => exact ih middle
          | some failure => rfl

theorem addAll_failure {front : List NamedDocument}
    (hk : ∀ d ∈ front, ∀ key ∈ placedKeys d, key.Accepted) (model : TypeSystem) :
    ((∀ d ∈ front, ¬DefinesReserved d) ∧ (TypeSystem.addAll false model front).value.2 = none) ∨
      (∃ d ∈ front, DefinesReserved d) ∧
        ∃ name, (TypeSystem.addAll false model front).value.2 = some (.reserved name) := by
  induction front generalizing model with
  | nil => exact .inl ⟨by simp, rfl⟩
  | cons d front ih =>
      simp only [TypeSystem.addAll, Logged.value_andThen]
      have hd := add_failure (hk d (by simp)) model
      cases hadd : (model.add false d).value with
      | mk middle failure =>
          rw [hadd] at hd
          rcases hd with ⟨hn, rfl⟩ | ⟨hr, name, rfl⟩
          · rcases ih (fun d hm => hk d (List.mem_cons_of_mem _ hm)) middle with h | h
            · exact .inl ⟨List.forall_mem_cons.mpr ⟨hn, h.1⟩, h.2⟩
            · obtain ⟨⟨d', hm, hd'⟩, hname⟩ := h
              exact .inr ⟨⟨d', List.mem_cons_of_mem _ hm, hd'⟩, hname⟩
          · exact .inr ⟨⟨d, by simp, hr⟩, name, rfl⟩

/-- A document with a rejected key stops an assembly as it stops a collection. -/
theorem add_rejected {d : NamedDocument} {failure : KeyFailure}
    (hd : ∀ key ∈ placedKeys d, ¬key.TooDeep)
    (hf : (placedKeys d).findSome? PlacedKey.failure? = some failure) (model : TypeSystem) :
    (model.add false d).value.2 = some (.key failure) := by
  have ha : annotates d := by
    by_cases ha : annotates d
    · exact ha
    · rw [placedKeys_of_not_annotates ha] at hf
      cases hf
  have hc := (collectEntityPatterns_collection hd
    (model.addLeafTypes d.document).value.entityPatterns).failure_eq
  simp [TypeSystem.add, annotates_iff.mp ha, TypeSystem.annotate, TypeSystem.addEntityPatterns, hc,
    hf]

theorem assemble_failure {documents : List NamedDocument} {strict skip : Bool}
    {failure : AssemblyFailure} :
    (assemble (some documents) strict skip).value = .error failure ↔
      (TypeSystem.addAll skip { strict := strict } documents).value.2 = some failure := by
  unfold assemble
  rw [Logged.value_andThen]
  cases (TypeSystem.addAll skip { strict := strict } documents).value with
  | mk model stopped => cases stopped <;> simp

/-- Documents up to the first with a rejected key stop an assembly at that key, unless one of the
documents before it defines a reserved name. -/
theorem assemble_rejected {front back : List NamedDocument} {d : NamedDocument}
    {failure : KeyFailure} (strict : Bool)
    (hk : ∀ d ∈ front, ∀ key ∈ placedKeys d, key.Accepted)
    (hd : ∀ key ∈ placedKeys d, ¬key.TooDeep)
    (hf : (placedKeys d).findSome? PlacedKey.failure? = some failure) :
    (assemble (some (front ++ d :: back)) strict false).value = .error (.key failure) ↔
      ∀ d ∈ front, ¬DefinesReserved d := by
  rw [assemble_failure, addAll_append]
  have hfront := addAll_failure hk { strict := strict }
  cases hrun : (TypeSystem.addAll false { strict := strict } front).value with
  | mk model stopped =>
      rw [hrun] at hfront
      rcases hfront with ⟨hn, rfl⟩ | ⟨⟨d', hm, hr⟩, name, rfl⟩
      · have hadd := add_rejected hd hf model
        simp only [TypeSystem.addAll, Logged.value_andThen]
        cases hstep : (model.add false d).value with
        | mk middle failed =>
            rw [hstep] at hadd
            obtain rfl : failed = _ := hadd
            exact ⟨fun _ => hn, fun _ => rfl⟩
      · constructor
        · intro h
          cases h
        · intro h
          exact (h d' hm hr).elim

/-! ## The first rejected key -/

/-- A key among the keys of documents is one of a document. -/
theorem keysOf_split {documents : List NamedDocument} {before after : List PlacedKey}
    {key : PlacedKey} (h : keysOf documents = before ++ key :: after) :
    ∃ front d back before' after', documents = front ++ d :: back
      ∧ before = keysOf front ++ before' ∧ placedKeys d = before' ++ key :: after' := by
  induction documents generalizing before with
  | nil =>
      have hl := congrArg List.length h
      simp [keysOf] at hl
  | cons d rest ih =>
      rw [keysOf_cons] at h
      rcases List.append_eq_append_iff.mp h with ⟨middle, hb, hr⟩ | ⟨middle, hp, hk⟩
      · obtain ⟨front, d', back, before', after', rfl, rfl, hd⟩ := ih hr
        exact ⟨d :: front, d', back, before', after', rfl,
          by rw [hb, keysOf_cons, List.append_assoc], hd⟩
      · cases middle with
        | nil =>
            rw [List.nil_append] at hk
            obtain ⟨front, d', back, before', after', rfl, hb, hd⟩ := @ih [] hk.symm
            obtain ⟨hf, rfl⟩ := List.append_eq_nil_iff.mp hb.symm
            refine ⟨d :: front, d', back, [], after', rfl, ?_, hd⟩
            rw [keysOf_cons, hf, List.append_nil, hp]
            simp
        | cons first middle =>
            obtain ⟨rfl, rfl⟩ := List.cons.inj hk
            exact ⟨[], d, rest, before, middle, rfl, by simp [keysOf], hp⟩

/-- Keys that are not nested too deeply are accepted, or there is a first one that is rejected. A
collection stops at it and tells its text, its scope, its document and what is wrong with it, with
the patterns of the keys before it; an assembly fails with the same, unless a document before
defines a scalar under a reserved name. -/
theorem collectAllEntityPatterns_stops (documents : List NamedDocument) (patterns : EntityPatterns)
    (strict : Bool) (hd : ∀ key ∈ keysOf documents, ¬key.TooDeep) :
    ((∃ e, (collectAllEntityPatterns patterns documents).value.2 = some (.invalid e)) ↔
        ∃ key ∈ keysOf documents, ∃ cause, key.RejectedFor cause)
      ∧ ∀ e, (collectAllEntityPatterns patterns documents).value.2 = some (.invalid e) →
        ∃ front d back before key after cause, documents = front ++ d :: back
          ∧ placedKeys d = before ++ key :: after
          ∧ (∀ earlier ∈ keysOf front ++ before, earlier.Accepted)
          ∧ key.RejectedFor cause
          ∧ e = ⟨key.fields, key.scope.text, d.displayName, cause⟩
          ∧ Produces patterns (keysOf front ++ before)
              (collectAllEntityPatterns patterns documents).value.1
          ∧ ((assemble (some documents) strict false).value = .error (.key (.invalid e)) ↔
              ∀ earlier ∈ front, ¬DefinesReserved earlier) := by
  have hc := collectAllEntityPatterns_collection hd patterns
  generalize (collectAllEntityPatterns patterns documents).value = result at hc
  cases hc with
  | finished ha hp =>
      refine ⟨⟨fun ⟨e, he⟩ => (by cases he), ?_⟩, fun e he => by cases he⟩
      rintro ⟨key, hm, cause, hr⟩
      obtain ⟨set, hs⟩ := ha key hm
      rw [PlacedKey.RejectedFor, hs] at hr
      cases hr
  | @stopped before after key cause patterns' hs ha hr hp =>
      refine ⟨⟨fun _ => ⟨key, by simp [hs], cause, hr⟩, fun _ => ⟨_, rfl⟩⟩, fun e he => ?_⟩
      obtain rfl : key.error cause = e := by simpa using he
      obtain ⟨front, d, back, before', after', rfl, rfl, hd'⟩ := keysOf_split hs
      have hkey : key ∈ placedKeys d := by simp [hd']
      have hname : key.fileName = d.displayName := by
        unfold placedKeys at hkey
        simp only [List.mem_append, List.mem_map] at hkey
        rcases hkey with ⟨_, -, rfl⟩ | ⟨_, -, rfl⟩ <;> rfl
      refine ⟨front, d, back, before', key, after', cause, rfl, hd', ha, hr, ?_, hp, ?_⟩
      · rw [PlacedKey.error, hname]
      · refine assemble_rejected strict (fun x hx k hk => ?_) (fun k hk => ?_) ?_
        · exact ha k (List.mem_append_left _ (mem_keysOf hx hk))
        · exact hd k (mem_keysOf (by simp) hk)
        · have hb : before'.findSome? PlacedKey.failure? = none :=
            List.findSome?_eq_none_iff.mpr fun k hm =>
              (ha k (List.mem_append_right _ hm)).failure?
          rw [hd', List.findSome?_append, hb, Option.none_or, List.findSome?_cons, hr.failure?]

/-- Keys of one type in two documents, a key of the schema after the bad one. -/
def repeatedKeys : List NamedDocument :=
  [⟨⟨[.typeExtension ⟨none, "User", [⟨"key", [⟨"fields", .string "id" false, none⟩], none⟩],
        .object [] []⟩], none⟩, some "first.graphql"⟩,
    ⟨⟨[.typeExtension ⟨none, "User", [⟨"key", [⟨"fields", .string "id (" false, none⟩], none⟩],
        .object [] []⟩,
      .schemaExtension ⟨none, [⟨"key", [⟨"fields", .string "name" false, none⟩], none⟩], []⟩], none⟩,
      some "second.graphql"⟩]

theorem collectAllEntityPatterns_stops_repeated :
    (∀ key ∈ keysOf repeatedKeys, ¬key.TooDeep)
      ∧ ∃ e, (collectAllEntityPatterns {} repeatedKeys).value.2 = some (.invalid e)
        ∧ ∃ front d back before key after cause, repeatedKeys = front ++ d :: back
          ∧ placedKeys d = before ++ key :: after
          ∧ (∀ earlier ∈ keysOf front ++ before, earlier.Accepted)
          ∧ key.RejectedFor cause
          ∧ e = ⟨key.fields, key.scope.text, d.displayName, cause⟩
          ∧ Produces {} (keysOf front ++ before) (collectAllEntityPatterns {} repeatedKeys).value.1
          ∧ ((assemble (some repeatedKeys) true false).value = .error (.key (.invalid e)) ↔
              ∀ earlier ∈ front, ¬DefinesReserved earlier) := by
  have hd : ∀ key ∈ keysOf repeatedKeys, ¬key.TooDeep := by decide +kernel
  have hs := collectAllEntityPatterns_stops repeatedKeys {} true hd
  cases hf : (collectAllEntityPatterns {} repeatedKeys).value.2 with
  | none =>
      have hk : (collectAllEntityPatterns {} repeatedKeys).value.2.isSome := by decide +kernel
      rw [hf] at hk
      cases hk
  | some failure =>
      cases failure with
      | invalid e => exact ⟨hd, e, rfl, hs.2 e hf⟩
      | nestedTooDeep =>
          have hk : (collectAllEntityPatterns {} repeatedKeys).value.2 ≠ some .nestedTooDeep := by
            decide +kernel
          exact (hk hf).elim

/-- A scalar under a reserved name, then a document with a bad key. -/
def reservedFirst : List NamedDocument :=
  [⟨⟨[.type ⟨none, "__Type", [], .scalar⟩], none⟩, none⟩,
    ⟨⟨[.schemaExtension ⟨none, [⟨"key", [⟨"fields", .string "id (" false, none⟩], none⟩], []⟩],
      none⟩, none⟩]

/-- The collection of keys fails at the bad key, and the assembly before it. -/
theorem assemble_reservedFirst :
    (collectAllEntityPatterns {} reservedFirst).value.2 =
        some (.invalid ⟨"id (", "schema", none, .expected "Name" (.punctuator .braceClose),
          ⟨⟨selectionSourceName, "\x7bid (\x7d"⟩, 5⟩⟩)
      ∧ (assemble (some reservedFirst) true false).value = .error (.reserved ⟨"__Type"⟩) :=
  ⟨by decide +kernel, assemble_failure.mpr (by decide)⟩

end SdlAssembly.Model
