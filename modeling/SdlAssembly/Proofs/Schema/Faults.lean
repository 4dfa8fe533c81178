import SdlAssembly.Proofs.Schema.Building

/-!
# Faults that are told

The building of a schema fails with a fault of the definitions, or breaks off from inside: where an
extension of another kind is asked for the values of an enum, or where a default needs itself without
end. Definitions without extensions never make it break off, since the fields of input objects tell
whatever goes wrong in them.
-/

namespace SdlAssembly.Schemas

open Grammar Annotation Except

/-- Whether a fault is told of the definitions. -/
def BuildFault.isTold : BuildFault → Bool
  | .noEnumValues _ | .endlessDefault => false
  | _ => true

/-- A computation that tells its faults. -/
abbrev Tells {α : Type} (x : Except BuildFault α) : Prop := x.Fails fun fault => fault.isTold

/-! ## Directives and enums -/

theorem readDeprecation_tells (directives : List Directive) : Tells (readDeprecation directives) := by
  unfold readDeprecation
  split
  · exact .ok
  · split
    · exact .ok
    · split
      · exact .ok
      · exact .ok
      · exact .error rfl

theorem readSpecifiedBy_tells (directives : List Directive) : Tells (readSpecifiedBy directives) := by
  unfold readSpecifiedBy
  split
  · exact .ok
  · split
    · exact .error rfl
    · split
      · exact .error rfl
      · exact .ok
      · exact .error rfl

/-- The definition of an enum has values, which an extension of another kind has not. -/
theorem enumValues_tells {node : TypeNode} {values : List EnumValueDefinition}
    (h : node.body = .enum values) : Tells (enumValues [node]) := by
  have hvalues : valuesOf node = .ok values := by rw [valuesOf, h]
  refine .bind (.mapM fun other ho => ?_) fun _ _ => .ok
  obtain rfl := List.mem_singleton.mp ho
  rw [hvalues]
  exact .mapM fun d _ => .bind (readDeprecation_tells _) fun _ _ => .ok

theorem checkExtensions_tells (owner node : String) (extensions : List TypeNode) :
    Tells (checkExtensions owner node extensions) := by
  unfold checkExtensions
  split
  · exact .ok
  · exact .error rfl

/-- What goes wrong inside the members of a type is told of the type. -/
theorem inPart_tells {α : Type} (owner : String) (part : TypePart) (result : Except BuildFault α) :
    Tells (inPart owner part result) := by
  have h : result.Fails fun _ => True := fun _ _ => trivial
  exact h.mapError fun _ _ => rfl

/-! ## Literals -/

/-- A type that is read without breaking off, and so are its fields. -/
def ReadsOut (x : Except BuildFault (InputShape BuildFault)) : Prop :=
  Tells x ∧ ∀ fields oneOf, x = .ok (.object fields oneOf) → Tells (fields ())

section Reading

variable {shape : String → Except BuildFault (InputShape BuildFault)}

theorem objectFields_tells {value? : InputField → Except BuildFault (Option (Option Constant))}
    {fields : List InputField} (h : ∀ field, Tells (value? field)) :
    Tells (objectFields value? fields) := by
  induction fields with
  | nil => exact .ok
  | cons field fields ih =>
      refine .bind (h field) fun value _ => ?_
      match value with
      | some none => exact .ok
      | some (some value) => exact .bind ih fun _ _ => .ok
      | none =>
          dsimp only
          split
          · exact .bind ih fun _ _ => .ok
          · split
            · exact .ok
            · exact ih

mutual

theorem readLiteral_tells (h : ∀ name, ReadsOut (shape name)) :
    ∀ (literal : Value) (type : TypeRef), Tells (readLiteral shape literal type)
  | .null, type => .ok
  | .list items, type => by
      rw [readLiteral]
      split
      · exact .bind (readItems_tells h items _) fun _ _ => .ok
      · refine .bind (h _).1 fun s _ => ?_
        cases s <;> exact .ok
  | .object given, type => by
      rw [readLiteral]
      refine .bind (h _).1 fun s hs => ?_
      cases s with
      | leaf t => exact .ok
      | object fields oneOf =>
          refine .bind ((h _).2 fields oneOf hs) fun expected _ => ?_
          refine .bind (objectFields_tells fun field =>
            readField_tells h given field.name field.type) fun read _ => ?_
          cases read with
          | none => exact .ok
          | some read =>
              dsimp only
              split <;> exact .ok
  | .variable _, type | .int _, type | .float _, type | .string _ _, type | .boolean _, type
  | .enum _, type => by
      unfold readLiteral
      refine .bind (h _).1 fun s _ => ?_
      cases s <;> exact .ok

theorem readItems_tells (h : ∀ name, ReadsOut (shape name)) :
    ∀ (items : List Value) (type : TypeRef), Tells (readItems shape items type)
  | [], _ => .ok
  | item :: rest, type => by
      rw [readItems]
      refine .bind (readLiteral_tells h item type) fun value _ => ?_
      cases value with
      | none => exact .ok
      | some value => exact .bind (readItems_tells h rest type) fun _ _ => .ok

theorem readField_tells (h : ∀ name, ReadsOut (shape name)) :
    ∀ (given : List (String × Value)) (name : String) (type : TypeRef),
      Tells (readField shape given name type)
  | [], _, _ => .ok
  | (key, literal) :: rest, name, type => by
      rw [readField]
      refine .bind (readField_tells h rest name type) fun found _ => ?_
      cases found with
      | some found => exact .ok
      | none =>
          dsimp only
          split
          · exact .bind (readLiteral_tells h literal type) fun _ _ => .ok
          · exact .ok

end

end Reading

/-! ## Inputs -/

/-- No definition among the sources is extended. -/
def Sources.Unextended (sources : Sources) : Prop :=
  ∀ name node extensions, sources.find? name = some (.written node extensions) → extensions = []

section Inputs

variable {sources : Sources} {shape : String → Except BuildFault (InputShape BuildFault)}

theorem check_tells (sources : Sources) (type : TypeRef) : Tells (sources.check type) := by
  unfold Sources.check
  split
  · exact .ok
  · exact .error rfl

theorem inputField_tells (h : ∀ name, ReadsOut (shape name)) {wrongType : BuildFault}
    (hw : wrongType.isTold) (d : InputDefinition) :
    Tells (inputField sources shape wrongType d) := by
  have hd : Tells (readDefault shape d) := by
    unfold readDefault
    split
    · exact .ok
    · exact readLiteral_tells h _ _
  refine .bind (check_tells sources d.type) fun _ _ => .bind hd fun _ _ => ?_
  refine .bind (readDeprecation_tells d.directives) fun _ _ => ?_
  split
  · exact .ok
  · exact .error hw

theorem shape_readsOut (h : sources.Unextended) (name : String) : ReadsOut (sources.shape name) := by
  unfold Sources.shape inputShape
  split
  · exact ⟨.error rfl, by simp⟩
  · split
    · exact ⟨.ok, by simp⟩
    · exact ⟨.error rfl, by simp⟩
  · rename_i node extensions hs
    obtain rfl := h _ _ _ hs
    split
    · exact ⟨.ok, by simp⟩
    · rename_i values hb
      refine ⟨.bind (enumValues_tells hb) fun _ _ => .ok, fun fields oneOf he => ?_⟩
      obtain ⟨_, -, he⟩ := bind_eq_ok he
      cases he
    · refine ⟨.ok, fun fields oneOf he => ?_⟩
      cases he
      exact inPart_tells name .fields _
    · exact ⟨.error rfl, by simp⟩

theorem argumentsFrom_tells (h : sources.Unextended) (definitions : List InputDefinition) :
    Tells (argumentsFrom sources definitions) :=
  .bind (.mapM fun d _ => inputField_tells (shape_readsOut h) rfl d) fun _ _ => .ok

end Inputs

/-! ## Types -/

section Types

variable {sources : Sources}

theorem interfacesFrom_tells (sources : Sources) (name : String) (nodes : List TypeNode) :
    Tells (interfacesFrom sources name nodes) := by
  refine .bind (inPart_tells _ _ _) fun interfaces _ => ?_
  split
  · exact .ok
  · exact .error rfl

theorem membersFrom_tells (sources : Sources) (name : String) (nodes : List TypeNode) :
    Tells (membersFrom sources name nodes) := by
  refine .bind (inPart_tells _ _ _) fun members _ => ?_
  split
  · exact .ok
  · exact .error rfl

theorem shapeOf_tells (sources : Sources) (node : TypeNode) : Tells (shapeOf sources node []) := by
  unfold shapeOf
  dsimp only
  split
  · exact .bind (readSpecifiedBy_tells _) fun _ _ => .ok
  · refine .bind (interfacesFrom_tells _ _ _) fun _ _ => ?_
    exact .bind (inPart_tells _ _ _) fun _ _ => .ok
  · refine .bind (interfacesFrom_tells _ _ _) fun _ _ => ?_
    exact .bind (inPart_tells _ _ _) fun _ _ => .ok
  · exact .bind (membersFrom_tells _ _ _) fun _ _ => .ok
  · rename_i hb
    exact .bind (enumValues_tells hb) fun _ _ => .ok
  · exact .bind (inPart_tells _ _ _) fun _ _ => .ok

theorem TypeSource.type_tells (source : TypeSource)
    (h : ∀ node extensions, source = .written node extensions → extensions = []) :
    Tells (source.type sources) := by
  cases source with
  | ready t => exact .ok
  | written node extensions =>
      obtain rfl := h node extensions rfl
      exact .bind (shapeOf_tells sources node) fun _ _ => .ok

theorem TypeSource.readAtOnce_tells (source : TypeSource)
    (h : ∀ node extensions, source = .written node extensions → extensions = []) :
    Tells source.readAtOnce := by
  cases source with
  | ready t => exact .ok
  | written node extensions =>
      obtain rfl := h node extensions rfl
      have hc := checkExtensions_tells node.name (extensionNode node.body) []
      unfold TypeSource.readAtOnce
      dsimp only
      split
      · exact .bind (.discard (readSpecifiedBy_tells _)) fun _ _ => hc
      · rename_i hb
        exact .bind (.discard (enumValues_tells hb)) fun _ _ => hc
      · exact hc

/-! ## Documents -/

theorem unextended_sourceOf (node : TypeNode) :
    ∀ other extensions, sourceOf [] node = .written other extensions → extensions = [] := by
  unfold sourceOf
  cases standardType? node.name with
  | some t => simp
  | none =>
      intro other extensions h
      cases h
      rfl

theorem unextended_of_mem_sourcesOf (existing : List NamedType) {definitions : List Definition}
    (hx : typeExtensions definitions = []) : ∀ pair ∈ sourcesOf existing definitions,
      ∀ node extensions, pair.2 = .written node extensions → extensions = [] := by
  rw [sourcesOf_eq, hx]
  refine forall_putAll (P := fun _ (source : TypeSource) => ∀ node extensions,
    source = .written node extensions → extensions = []) ?_ fun node _ => unextended_sourceOf node
  simp

theorem unextended_sourcesOf (existing : List NamedType) {definitions : List Definition}
    (hx : typeExtensions definitions = []) : (sourcesOf existing definitions).Unextended := by
  intro name node extensions hf
  unfold Sources.find? at hf
  split at hf
  · cases hf
  · exact unextended_of_mem_sourcesOf existing hx _ (mem_of_lookup hf) node extensions rfl

theorem bindRoots_tells (sources : Sources) (schema : Schema) (nodes : List SchemaNode) :
    Tells (bindRoots sources schema nodes) :=
  .foldlM fun _ binding _ => .bind (check_tells sources (.named binding.type)) fun _ _ => .ok

/-- Definitions without extensions make a schema, or it is told what is wrong with them. -/
theorem extendWith_tells {base : Schema} {definitions : List Definition} {unchecked : Bool}
    {adjust : Schema → Schema} (hx : typeExtensions definitions = []) :
    Tells (extendWith base definitions unchecked adjust) := by
  unfold extendWith
  split
  · exact .ok
  · dsimp only
    rw [hx]
    refine .bind (.mapM fun t _ => ?_) fun existing _ => ?_
    · rw [extendExisting_nil]
      exact .ok
    have hsources := unextended_of_mem_sourcesOf existing hx
    have hu := unextended_sourcesOf existing hx
    refine .bind (.forM fun node _ => ?_) fun _ _ => ?_
    · exact TypeSource.readAtOnce_tells _ (unextended_sourceOf node)
    refine .bind (bindRoots_tells _ _ _) fun rooted _ => ?_
    refine .bind (bindRoots_tells _ _ _) fun rooted _ => ?_
    refine .bind (.mapM fun d _ => ?_) fun added _ => ?_
    · exact .bind (argumentsFrom_tells hu d.arguments) fun _ _ => .ok
    refine .bind (.mapM fun pair hm => ?_) fun types _ => .ok
    exact TypeSource.type_tells pair.2 (hsources pair hm)

end Types

end SdlAssembly.Schemas
