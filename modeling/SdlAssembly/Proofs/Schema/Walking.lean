import SdlAssembly.Proofs.Collecting
import SdlAssembly.Schema.Rules.Check

/-!
# Walks through definitions

Definitions keep the rules if no visit of the walk gives cause for complaint. The names of types
that were met matter to the definitions of types alone, and the parts of a definition are looked at
with what is known of directives and types.
-/

namespace SdlAssembly.Schemas.Rules

open Grammar Collecting

theorem violations_eq_nil {surroundings : Surroundings} {definitions : List Definition} :
    violations surroundings definitions = [] ↔
      Quiet (check surroundings (.of surroundings definitions)) {} (visits definitions) := by
  rw [← foldl_eq_nil]
  rfl

theorem visits_cons (d : Definition) (definitions : List Definition) :
    visits (d :: definitions) = ofDefinition d ++ visits definitions := List.flatMap_cons

/-! ## Parts of definitions -/

/-- Visits below the head of a definition. -/
def Visit.isPart : Visit → Bool
  | .schemaDefinition _ | .schemaExtension _ | .typeDefinition _ | .typeExtension _
  | .directiveDefinition _ | .extends _ => false
  | .directives _ _ | .reference _ _ | .selectedField _ | .directive _ _ | .directiveEnd _
  | .objectField _ _ => true

mutual

theorem isPart_ofValue : ∀ (value : Value), ∀ v ∈ ofValue value, v.isPart
  | .list items => by
      rw [ofValue]
      exact isPart_ofItems items
  | .object fields => by
      rw [ofValue]
      exact isPart_ofFields fields []
  | .variable _ | .int _ | .float _ | .string _ _ | .boolean _ | .null | .enum _ => by simp [ofValue]

theorem isPart_ofItems : ∀ (items : List Value), ∀ v ∈ ofItems items, v.isPart
  | [] => by simp [ofItems]
  | item :: rest => by
      intro v hv
      rw [ofItems] at hv
      rcases List.mem_append.mp hv with hv | hv
      · exact isPart_ofValue item v hv
      · exact isPart_ofItems rest v hv

theorem isPart_ofFields : ∀ (fields : List (String × Value)) (seen : List String),
    ∀ v ∈ ofFields seen fields, v.isPart
  | [], _ => by simp [ofFields]
  | (name, value) :: rest, seen => by
      intro v hv
      rw [ofFields] at hv
      rcases List.mem_append.mp hv with hv | hv
      · rcases List.mem_cons.mp hv with rfl | hv
        · rfl
        · exact isPart_ofValue value v hv
      · exact isPart_ofFields rest _ v hv

end

theorem isPart_ofArguments (arguments : List Argument) : ∀ v ∈ ofArguments arguments, v.isPart := by
  intro v hv
  obtain ⟨argument, -, hv⟩ := List.mem_flatMap.mp hv
  exact isPart_ofValue argument.value v hv

theorem isPart_ofDirectives (site : Site) (directives : List Directive) :
    ∀ v ∈ ofDirectives site directives, v.isPart := by
  intro v hv
  obtain ⟨directive, -, hv⟩ := List.mem_flatMap.mp hv
  rcases List.mem_append.mp hv with hv | hv
  · rcases List.mem_cons.mp hv with rfl | hv
    · rfl
    · exact isPart_ofArguments _ v hv
  · rw [List.mem_singleton.mp hv]
    rfl

theorem isPart_atNode (site : Site) (directives : List Directive) :
    ∀ v ∈ atNode site directives, v.isPart := by
  unfold atNode
  split
  · simp
  · intro v hv
    rw [List.mem_singleton.mp hv]
    rfl

theorem isPart_ofDefault (default : Option Value) : ∀ v ∈ ofDefault default, v.isPart := by
  cases default with
  | none => simp [ofDefault]
  | some value => exact isPart_ofValue value

/-! ### Selections -/

mutual

theorem isPart_ofSelection : ∀ (selection : Selection), ∀ v ∈ ofSelection selection, v.isPart
  | .field aliasName name arguments directives none => by
      simp only [ofSelection, List.forall_mem_append, List.forall_mem_cons]
      exact ⟨⟨⟨isPart_atNode _ _, rfl, isPart_ofArguments _⟩, isPart_ofDirectives _ _⟩, by simp⟩
  | .field aliasName name arguments directives (some set) => by
      simp only [ofSelection, List.forall_mem_append, List.forall_mem_cons]
      exact ⟨⟨⟨isPart_atNode _ _, rfl, isPart_ofArguments _⟩, isPart_ofDirectives _ _⟩,
        isPart_ofSelections set⟩
  | .spread name directives => by
      simp only [ofSelection, List.forall_mem_append]
      exact ⟨isPart_atNode _ _, isPart_ofDirectives _ _⟩
  | .inline condition directives selections => by
      simp only [ofSelection, List.forall_mem_append]
      refine ⟨⟨⟨isPart_atNode _ _, ?_⟩, isPart_ofDirectives _ _⟩, isPart_ofSelections selections⟩
      cases condition with
      | none => simp
      | some name => simp [Visit.isPart]

theorem isPart_ofSelections : ∀ (selections : List Selection), ∀ v ∈ ofSelections selections, v.isPart
  | [] => by simp [ofSelections]
  | selection :: rest => by
      simp only [ofSelections, List.forall_mem_append]
      exact ⟨isPart_ofSelection selection, isPart_ofSelections rest⟩

end

/-! ### Heads and parts -/

theorem isPart_ofVariable (d : VariableDefinition) : ∀ v ∈ ofVariable d, v.isPart := by
  simp only [ofVariable, List.forall_mem_append]
  exact ⟨⟨⟨isPart_atNode _ _, by simp [Visit.isPart]⟩, isPart_ofDefault _⟩, isPart_ofDirectives _ _⟩

theorem isPart_ofInput (site : Site) (d : InputDefinition) : ∀ v ∈ ofInput site d, v.isPart := by
  simp only [ofInput, List.forall_mem_append]
  exact ⟨⟨⟨isPart_atNode _ _, by simp [Visit.isPart]⟩, isPart_ofDefault _⟩, isPart_ofDirectives _ _⟩

theorem isPart_ofInputs (site : Site) (ds : List InputDefinition) :
    ∀ v ∈ ds.flatMap (ofInput site), v.isPart := by
  intro v hv
  obtain ⟨d, -, hv⟩ := List.mem_flatMap.mp hv
  exact isPart_ofInput site d v hv

theorem isPart_ofField (d : FieldDefinition) : ∀ v ∈ ofField d, v.isPart := by
  simp only [ofField, List.forall_mem_append]
  exact ⟨⟨⟨isPart_atNode _ _, isPart_ofInputs _ _⟩, by simp [Visit.isPart]⟩,
    isPart_ofDirectives _ _⟩

theorem isPart_ofType (node : TypeNode) : ∀ v ∈ ofType false node, v.isPart := by
  have hreferences : ∀ names : List String,
      ∀ v ∈ names.map fun name => Visit.reference name true, v.isPart := by
    intro names v hv
    obtain ⟨name, -, rfl⟩ := List.mem_map.mp hv
    rfl
  have hfields : ∀ fields : List FieldDefinition, ∀ v ∈ fields.flatMap ofField, v.isPart := by
    intro fields v hv
    obtain ⟨d, -, hv⟩ := List.mem_flatMap.mp hv
    exact isPart_ofField d v hv
  simp only [ofType, List.forall_mem_append]
  refine ⟨⟨isPart_atNode _ _, by simp⟩, ?_⟩
  split
  · exact isPart_ofDirectives _ _
  · simp only [List.forall_mem_append]
    exact ⟨⟨hreferences _, isPart_ofDirectives _ _⟩, hfields _⟩
  · simp only [List.forall_mem_append]
    exact ⟨⟨hreferences _, isPart_ofDirectives _ _⟩, hfields _⟩
  · simp only [List.forall_mem_append]
    exact ⟨isPart_ofDirectives _ _, hreferences _⟩
  · simp only [List.forall_mem_append]
    refine ⟨isPart_ofDirectives _ _, fun v hv => ?_⟩
    obtain ⟨d, -, hv⟩ := List.mem_flatMap.mp hv
    rcases List.mem_append.mp hv with hv | hv
    · exact isPart_atNode _ _ v hv
    · exact isPart_ofDirectives _ _ v hv
  · simp only [List.forall_mem_append]
    exact ⟨isPart_ofDirectives _ _, isPart_ofInputs _ _⟩

theorem isPart_ofSchema (node : SchemaNode) : ∀ v ∈ ofSchema node, v.isPart := by
  simp only [ofSchema, List.forall_mem_append]
  refine ⟨⟨isPart_atNode _ _, isPart_ofDirectives _ _⟩, fun v hv => ?_⟩
  obtain ⟨binding, -, rfl⟩ := List.mem_map.mp hv
  rfl

theorem isPart_of_mem_operation {d : Operation} :
    ∀ v ∈ ofDefinition (.operation d), v.isPart := by
  simp only [ofDefinition, List.forall_mem_append]
  refine ⟨⟨⟨isPart_atNode _ _, fun v hv => ?_⟩, isPart_ofDirectives _ _⟩, isPart_ofSelections _⟩
  obtain ⟨d, -, hv⟩ := List.mem_flatMap.mp hv
  exact isPart_ofVariable d v hv

theorem isPart_of_mem_fragment {d : Fragment} :
    ∀ v ∈ ofDefinition (.fragment d), v.isPart := by
  simp only [ofDefinition, List.forall_mem_append]
  exact ⟨⟨⟨isPart_atNode _ _, by simp [Visit.isPart]⟩, isPart_ofDirectives _ _⟩,
    isPart_ofSelections _⟩

/-! ## Names of types that were met -/

/-- What was met earlier, with other names of types. -/
def Seen.typed (seen : Seen) (types : List String) : Seen := { seen with types := types }

@[simp] theorem typed_types (seen : Seen) (types : List String) : (seen.typed types).types = types :=
  rfl

@[simp] theorem typed_typed (seen : Seen) (types types' : List String) :
    (seen.typed types).typed types' = seen.typed types' := rfl

section Typed

variable {surroundings : Surroundings} {scope : Scope} {seen : Seen} {types : List String}

/-- Steps that pass by the names of types do so together. -/
theorem foldl_typed {α : Type} {step : Seen × List String → α → Seen × List String}
    (h : ∀ seen found a, step (seen.typed types, found) a =
      ((step (seen, found) a).1.typed types, (step (seen, found) a).2)) (items : List α)
    (seen : Seen) (found : List String) : items.foldl step (seen.typed types, found) =
      ((items.foldl step (seen, found)).1.typed types, (items.foldl step (seen, found)).2) := by
  induction items generalizing seen found with
  | nil => rfl
  | cons a items ih => rw [List.foldl_cons, h, ih, List.foldl_cons]

theorem checkRoots_typed (roots : List RootBinding) : checkRoots (seen.typed types) roots =
    ((checkRoots seen roots).1.typed types, (checkRoots seen roots).2) := by
  refine foldl_typed (fun seen found binding => ?_) roots seen []
  by_cases h : seen.operations.contains binding.operation <;> simp [Seen.typed, h]

theorem checkValues_typed (type : String) (names : List String) :
    checkValues scope (seen.typed types) type names =
      ((checkValues scope seen type names).1.typed types,
        (checkValues scope seen type names).2) := by
  refine foldl_typed (fun seen found name => ?_) names seen []
  dsimp only [Seen.typed]
  split
  · rfl
  · split <;> rfl

theorem checkFields_typed (type : String) (names : List String) :
    checkFields scope (seen.typed types) type names =
      ((checkFields scope seen type names).1.typed types,
        (checkFields scope seen type names).2) := by
  refine foldl_typed (fun seen found name => ?_) names seen []
  dsimp only [Seen.typed]
  split
  · rfl
  · split <;> rfl

theorem checkMembers_typed (node : TypeNode) : checkMembers scope (seen.typed types) node =
    ((checkMembers scope seen node).1.typed types, (checkMembers scope seen node).2) := by
  unfold checkMembers
  split <;> simp only [checkValues_typed, checkFields_typed]

theorem checkSite_typed (site : Site) (directives : List Directive) :
    checkSite scope (seen.typed types) site directives =
      ((checkSite scope seen site directives).1.typed types,
        (checkSite scope seen site directives).2) := by
  unfold checkSite
  split <;> rfl

theorem checkDirectiveName_typed (name : String) :
    checkDirectiveName surroundings (seen.typed types) name =
      ((checkDirectiveName surroundings seen name).1.typed types,
        (checkDirectiveName surroundings seen name).2) := by
  unfold checkDirectiveName
  by_cases hx : surroundings.extended && surroundings.directives.any (·.name == name)
  · simp only [hx, ↓reduceIte]
  · by_cases hs : seen.directives.contains name <;> simp only [Seen.typed, hx, hs] <;> rfl

/-- Only the definition of a type asks for the names of types that were met. -/
theorem check_typed {v : Visit} (hv : ∀ node, v ≠ .typeDefinition node) :
    check surroundings scope (seen.typed types) v =
      ((check surroundings scope seen v).1.typed types, (check surroundings scope seen v).2) := by
  cases v with
  | typeDefinition node => exact (hv node rfl).elim
  | schemaDefinition node =>
      have hroots : checkRoots ((checkSchema seen).1.typed types) node.roots = _ :=
        checkRoots_typed node.roots
      exact congrArg (fun state => (state.1, (checkSchema seen).2 ++ state.2)) hroots
  | schemaExtension node => exact checkRoots_typed node.roots
  | typeExtension node => exact checkMembers_typed node
  | directiveDefinition node =>
      exact congrArg (fun state => (state.1, _ ++ state.2)) (checkDirectiveName_typed node.name)
  | directives site directives => exact checkSite_typed site directives
  | _ => rfl

/-- A new name of a type is remembered. -/
theorem check_typeDefinition {node : TypeNode} (hx : scope.existing? node.name = none)
    (hn : node.name ∉ seen.types) : check surroundings scope seen (.typeDefinition node) =
      checkMembers scope (seen.typed (node.name :: seen.types)) node := by
  have hname : checkTypeName scope seen node.name =
      (seen.typed (node.name :: seen.types), []) := by
    simp [checkTypeName, hx, hn, Seen.typed]
  simp [check, hname]

end Typed

end SdlAssembly.Schemas.Rules
