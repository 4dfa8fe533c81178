import SdlAssembly.Proofs.Schema.Listing
import SdlAssembly.Schema.Validity

/-!
# Root types

The root types of a schema are those that its definitions bind, or the types of the conventional
names where there is no schema definition. Definitions alone bind any type of such a name, and an
extension of a schema binds objects only.
-/

namespace SdlAssembly.Schemas

open Grammar

instance : LawfulBEq OperationKind where
  eq_of_beq {first second} h := by cases first <;> cases second <;> first | rfl | cases h
  rfl {operation} := by cases operation <;> rfl

section Roots

variable {schema schema' : Schema} {operation : OperationKind}

/-! ## Binding -/

theorem root?_withRoot (schema : Schema) (bound operation : OperationKind) (root : Option String) :
    (schema.withRoot bound root).root? operation =
      if operation = bound then root else schema.root? operation := by
  cases bound <;> cases operation <;> rfl

theorem root?_bind (h : schema.root? = schema'.root?) (bindings : List RootBinding) :
    (schema.bind bindings).root? = (schema'.bind bindings).root? := by
  unfold Schema.bind
  induction bindings generalizing schema schema' with
  | nil => exact h
  | cons binding bindings ih =>
      refine ih (funext fun operation => ?_)
      rw [root?_withRoot, root?_withRoot, h]

theorem root?_adoptRoots (operations : List OperationKind) (schema : Schema) :
    (schema.adoptRoots operations).root? operation =
      if operation ∈ operations then some (conventionalRoot operation)
      else schema.root? operation := by
  unfold Schema.adoptRoots
  induction operations generalizing schema with
  | nil => simp
  | cons first operations ih =>
      rw [List.foldl_cons, ih, root?_withRoot]
      by_cases hm : operation ∈ operations
      · simp [hm]
      · by_cases hf : operation = first <;> simp [hm, hf]

theorem adoptRoots_frame (operations : List OperationKind) (schema : Schema) :
    (schema.adoptRoots operations).types = schema.types
      ∧ (schema.adoptRoots operations).directives = schema.directives
      ∧ (schema.adoptRoots operations).defined = schema.defined
      ∧ (schema.adoptRoots operations).unchecked = schema.unchecked := by
  unfold Schema.adoptRoots
  induction operations generalizing schema with
  | nil => exact ⟨rfl, rfl, rfl, rfl⟩
  | cons operation operations ih =>
      obtain ⟨ht, hd, hf, hu⟩ := ih (schema.withRoot operation (some (conventionalRoot operation)))
      rw [List.foldl_cons, ht, hd, hf, hu]
      cases operation <;> exact ⟨rfl, rfl, rfl, rfl⟩

theorem mem_all (operation : OperationKind) : operation ∈ OperationKind.all := by
  cases operation <;> decide

/-! ## Definitions alone -/

theorem root?_complete (names : List String) (schema : Schema) :
    (Schema.complete names schema).root? operation =
      if schema.defined = false ∧ conventionalRoot operation ∈ names then
        some (conventionalRoot operation)
      else schema.root? operation := by
  unfold Schema.complete
  cases schema.defined with
  | true => cases operation <;> rfl
  | false =>
      have hroot : (schema.adoptRoots (OperationKind.all.filter fun operation =>
          names.contains (conventionalRoot operation))).root? operation = _ :=
        root?_adoptRoots _ schema
      simp only [List.mem_filter, mem_all, true_and, List.contains_iff_mem] at hroot
      simp only [true_and, ← hroot]
      cases operation <;> rfl

/-- The standard directives that a schema lacks. -/
def missingDirectives (schema : Schema) : List DirectiveType :=
  standardDirectives.filter fun d => !schema.directives.any (·.name == d.name)

theorem complete_frame (names : List String) (schema : Schema) :
    (Schema.complete names schema).directives = schema.directives ++ missingDirectives schema
      ∧ (Schema.complete names schema).defined = schema.defined
      ∧ (Schema.complete names schema).unchecked = schema.unchecked := by
  unfold Schema.complete missingDirectives
  cases hd : schema.defined with
  | true => exact ⟨rfl, hd, rfl⟩
  | false =>
      obtain ⟨-, hdirectives, hdefined, hunchecked⟩ := adoptRoots_frame (OperationKind.all.filter
        fun operation => names.contains (conventionalRoot operation)) schema
      simp only [Bool.false_eq_true, ↓reduceIte]
      rw [hdirectives, hdefined, hunchecked]
      exact ⟨rfl, hd, rfl⟩

/-! ## Definitions on top of a schema -/

theorem mem_missingRoots : operation ∈ schema.missingRoots ↔ schema.defined = false
    ∧ schema.root? operation = none ∧ notObject schema (conventionalRoot operation) = false := by
  unfold Schema.missingRoots notObject
  cases schema.defined with
  | true => simp
  | false => simp [mem_all]

theorem root?_withDefaultRoots (schema : Schema) : schema.withDefaultRoots.root? operation =
    if schema.defined = false ∧ schema.root? operation = none
        ∧ notObject schema (conventionalRoot operation) = false then
      some (conventionalRoot operation)
    else schema.root? operation := by
  have hadopted : schema.withDefaultRoots.root? operation =
      if operation ∈ schema.missingRoots then some (conventionalRoot operation)
      else schema.root? operation := by
    unfold Schema.withDefaultRoots
    split
    · rename_i hm
      simp [hm]
    · rw [← root?_adoptRoots]
      cases operation <;> rfl
  rw [hadopted]
  simp only [mem_missingRoots]

theorem withDefaultRoots_frame (schema : Schema) :
    schema.withDefaultRoots.directives = schema.directives
      ∧ schema.withDefaultRoots.defined = schema.defined
      ∧ schema.withDefaultRoots.unchecked = schema.unchecked := by
  unfold Schema.withDefaultRoots
  split
  · exact ⟨rfl, rfl, rfl⟩
  · exact (adoptRoots_frame _ schema).2

/-! ## Objects as root types -/

/-- A schema whose root types are objects, unless a schema definition binds them. -/
def Schema.objectRoots (schema : Schema) : Schema :=
  if schema.defined then schema
  else
    { schema with
      query := schema.query.filter fun name => !notObject schema name
      mutation := schema.mutation.filter fun name => !notObject schema name
      subscription := schema.subscription.filter fun name => !notObject schema name }

theorem root?_objectRoots (schema : Schema) : schema.objectRoots.root? operation =
    if schema.defined then schema.root? operation
    else (schema.root? operation).filter fun name => !notObject schema name := by
  unfold Schema.objectRoots
  split
  · rfl
  · cases operation <;> rfl

theorem objectRoots_frame (schema : Schema) : schema.objectRoots.types = schema.types
    ∧ schema.objectRoots.directives = schema.directives
    ∧ schema.objectRoots.unchecked = schema.unchecked := by
  unfold Schema.objectRoots
  split <;> exact ⟨rfl, rfl, rfl⟩

theorem Schema.Lists.objectRoots {meaning : String → Option NamedType} (h : schema.Lists meaning) :
    schema.objectRoots.Lists meaning := by
  obtain ⟨htypes, hdirectives, -⟩ := objectRoots_frame schema
  have htype? : schema.objectRoots.type? = schema.type? := by
    funext name
    rw [Schema.type?, htypes, Schema.type?]
  have hroots : ∀ name ∈ schema.objectRoots.rootNames, name ∈ schema.rootNames := by
    intro name hn
    obtain ⟨operation, ho, hroot⟩ := List.mem_filterMap.mp hn
    rw [root?_objectRoots] at hroot
    refine List.mem_filterMap.mpr ⟨operation, ho, ?_⟩
    split at hroot
    · exact hroot
    · exact (Option.filter_eq_some_iff.mp hroot).1
  refine ⟨h.named, ?_, ?_, ?_, ?_, ?_, ?_, ?_⟩
  · rw [Schema.typeNames, htypes]
    exact h.nodup
  · rw [htypes]
    exact h.sound
  · rw [htypes]
    exact h.complete
  · rw [htypes, htype?]
    exact h.closed
  · rw [htype?]
    exact fun name hn => h.roots name (hroots name hn)
  · rw [hdirectives, htype?]
    exact h.directives
  · rw [htype?]
    exact h.introspection

end Roots

/-! ## What building adds -/

section Added

variable {base : Schema} {definitions : List Definition} {existing types : List NamedType}
  {added : List DirectiveType}

/-- What definitions add to a schema, besides types. -/
theorem Builds.withDefinitions_frame (h : Builds base definitions existing added types)
    (unchecked : Bool) :
    (base.withDefinitions definitions unchecked added).directives = base.directives ++ added
      ∧ (base.withDefinitions definitions unchecked added).root? =
        (base.bind (bindings definitions)).root?
      ∧ (base.withDefinitions definitions unchecked added).defined =
        (base.defined || !(schemaNodes definitions).1.isEmpty)
      ∧ (base.unchecked = unchecked →
        (base.withDefinitions definitions unchecked added).unchecked = unchecked) := by
  unfold Schema.withDefinitions
  cases hd : describesTypes definitions with
  | true =>
      refine ⟨rfl, funext fun operation => ?_, rfl, fun _ => rfl⟩
      cases operation <;> rfl
  | false =>
      obtain ⟨-, -, -, hs⟩ := parts_of_not_describesTypes hd
      obtain ⟨-, rfl, -⟩ := (builds_of_not_describesTypes hd).mp h
      simp [bindings, hs, Schema.bind]

theorem bindings_of_undefined (h : (schemaNodes definitions).1 = [])
    (hx : (schemaNodes definitions).2 = []) : bindings definitions = [] := by
  rw [bindings, h, hx]
  rfl

end Added

end SdlAssembly.Schemas
