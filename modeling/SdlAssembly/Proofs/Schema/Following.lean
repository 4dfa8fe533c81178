import SdlAssembly.Proofs.Schema.Sources

/-!
# Building from other sources

What is built from sources is built alike from sources that say the same of each name, whether they
say it in a definition or as a type that is there already.
-/

namespace SdlAssembly.Schemas

open Grammar Except

/-! ## Literals -/

/-- Shapes that are read alike, as far as the first is read. -/
def InputShape.Follows {ε ε' : Type} : InputShape ε → InputShape ε' → Prop
  | .leaf t, .leaf t' => ∀ literal, leafLiteral t literal = leafLiteral t' literal
  | .object fields oneOf, .object fields' oneOf' =>
    oneOf = oneOf' ∧ Except.Follows Eq (fields ()) (fields' ())
  | _, _ => False

section Reading

variable {ε ε' : Type} {shape : String → Except ε (InputShape ε)}
  {shape' : String → Except ε' (InputShape ε')}

theorem objectFields_follows {value? : InputField → Except ε (Option (Option Constant))}
    {value?' : InputField → Except ε' (Option (Option Constant))} {fields : List InputField}
    (h : ∀ field, Follows Eq (value? field) (value?' field)) :
    Follows Eq (objectFields value? fields) (objectFields value?' fields) := by
  induction fields with
  | nil => exact .ok rfl
  | cons field fields ih =>
      refine .bind (h field) fun value value' hv => ?_
      subst hv
      match value with
      | some none => exact .ok rfl
      | some (some value) => exact .bind ih fun a b hab => .ok (by rw [hab])
      | none =>
          dsimp only
          split
          · exact .bind ih fun a b hab => .ok (by rw [hab])
          · split
            · exact .ok rfl
            · exact ih

mutual

theorem readLiteral_follows (h : ∀ name, Follows InputShape.Follows (shape name) (shape' name)) :
    ∀ (literal : Value) (type : TypeRef),
      Follows Eq (readLiteral shape literal type) (readLiteral shape' literal type)
  | .null, type => .ok rfl
  | .list items, type => by
      rw [readLiteral, readLiteral]
      split
      · exact .bind (readItems_follows h items _) fun a b hab => .ok (by rw [hab])
      · refine .bind (h _) fun s s' hs => ?_
        match s, s', hs with
        | .leaf t, .leaf t', hs => exact .ok (hs _)
        | .object fields oneOf, .object fields' oneOf', hs => exact .ok rfl
  | .object given, type => by
      rw [readLiteral, readLiteral]
      refine .bind (h _) fun s s' hs => ?_
      match s, s', hs with
      | .leaf t, .leaf t', hs => exact .ok (by rw [hs])
      | .object fields oneOf, .object fields' oneOf', ⟨ho, hf⟩ =>
          refine .bind hf fun expected expected' he => ?_
          subst he
          refine .bind (objectFields_follows fun field =>
            readField_follows h given field.name field.type) fun read read' hr => ?_
          subst hr ho
          cases read with
          | none => exact .ok rfl
          | some read =>
              dsimp only
              split <;> exact .ok rfl
  | .variable _, type | .int _, type | .float _, type | .string _ _, type | .boolean _, type
  | .enum _, type => by
      unfold readLiteral
      refine .bind (h _) fun s s' hs => ?_
      match s, s', hs with
      | .leaf t, .leaf t', hs => exact .ok (by rw [hs])
      | .object fields oneOf, .object fields' oneOf', hs => exact .ok rfl

theorem readItems_follows (h : ∀ name, Follows InputShape.Follows (shape name) (shape' name)) :
    ∀ (items : List Value) (type : TypeRef),
      Follows Eq (readItems shape items type) (readItems shape' items type)
  | [], _ => .ok rfl
  | item :: rest, type => by
      rw [readItems, readItems]
      refine .bind (readLiteral_follows h item type) fun a b hab => ?_
      subst hab
      cases a with
      | none => exact .ok rfl
      | some value => exact .bind (readItems_follows h rest type) fun a b hab => .ok (by rw [hab])

theorem readField_follows (h : ∀ name, Follows InputShape.Follows (shape name) (shape' name)) :
    ∀ (given : List (String × Value)) (name : String) (type : TypeRef),
      Follows Eq (readField shape given name type) (readField shape' given name type)
  | [], _, _ => .ok rfl
  | (key, literal) :: rest, name, type => by
      rw [readField, readField]
      refine .bind (readField_follows h rest name type) fun a b hab => ?_
      subst hab
      cases a with
      | some found => exact .ok rfl
      | none =>
          dsimp only
          split
          · exact .bind (readLiteral_follows h literal type) fun a b hab => .ok (by rw [hab])
          · exact .ok rfl

end

end Reading

/-! ## Sources -/

/-- A scalar that is there already, in place of its definition. -/
inductive TypeSource.StandsFor : TypeSource → TypeSource → Prop
  | scalar {t : NamedType} {node : TypeNode} {extensions : List TypeNode}
      (body : node.body = .scalar) (name : t.name = node.name) (shape : t.shape = .scalar none) :
      StandsFor (.ready t) (.written node extensions)

/-- Sources that references cannot tell apart. -/
def TypeSource.Like (s s' : TypeSource) : Prop := s = s' ∨ s.StandsFor s' ∨ s'.StandsFor s

theorem TypeSource.Like.symm {s s' : TypeSource} (h : s.Like s') : s'.Like s :=
  h.elim (fun h => .inl h.symm) fun h => .inr h.symm

/-- Definitions stand under their own names. -/
def Sources.Named (sources : Sources) : Prop :=
  ∀ name node extensions, sources.find? name = some (.written node extensions) → node.name = name

theorem named_sourcesOf (existing : List NamedType) (definitions : List Definition) :
    (sourcesOf existing definitions).Named := by
  intro name node extensions hf
  cases hs : standardType? name with
  | some t =>
      rw [find?_of_standard hs] at hf
      cases hf
  | none =>
      rw [Sources.find?, hs] at hf
      exact name_of_mem_sourcesOf _ (mem_of_lookup hf)

/-- Each name that has a source has one like it among others. -/
structure Sources.Within (sources sources' : Sources) : Prop where
  like : ∀ name s, sources.find? name = some s → ∃ s', sources'.find? name = some s' ∧ s.Like s'
  named : sources.Named
  named' : sources'.Named

section Sources

variable {sources sources' : Sources} {node : TypeNode} {t : NamedType} {s s' : TypeSource}

/-- What a stand-in has in common with the definition of a scalar. -/
theorem TypeSource.StandsFor.tests (h : s.StandsFor s') :
    s.isInput = s'.isInput ∧ s.isOutput = s'.isOutput ∧ s.isInterface = s'.isInterface
      ∧ s.isObject = s'.isObject := by
  cases h with
  | scalar hb _ ht =>
      simp [TypeSource.isInput, TypeSource.isOutput, TypeSource.isInterface, TypeSource.isObject,
        NamedType.isInput, NamedType.isOutput, NamedType.isInputObject, NamedType.isLeaf,
        NamedType.isInterface, NamedType.isObject, hb, ht]

theorem TypeSource.Like.tests (h : s.Like s') :
    s.isInput = s'.isInput ∧ s.isOutput = s'.isOutput ∧ s.isInterface = s'.isInterface
      ∧ s.isObject = s'.isObject := by
  rcases h with rfl | h | h
  · exact ⟨rfl, rfl, rfl, rfl⟩
  · exact h.tests
  · obtain ⟨h1, h2, h3, h4⟩ := h.tests
    exact ⟨h1.symm, h2.symm, h3.symm, h4.symm⟩

theorem Sources.Within.isSome (h : sources.Within sources') {name : String}
    (hk : (sources.find? name).isSome) : (sources'.find? name).isSome := by
  obtain ⟨s, hs⟩ := Option.isSome_iff_exists.mp hk
  obtain ⟨s', hs', -⟩ := h.like _ s hs
  rw [hs']
  rfl

theorem Sources.Within.check (h : sources.Within sources') (type : TypeRef) :
    Follows Eq (sources.check type) (sources'.check type) := by
  intro a hc
  exact ⟨(), check_eq_ok.mpr (h.isSome (check_eq_ok.mp hc)), rfl⟩

/-- A test that stand-ins pass like their definitions is passed under the same names. -/
theorem Sources.Within.test (h : sources.Within sources') {test : TypeSource → Bool}
    (ht : ∀ s s' : TypeSource, s.Like s' → test s = test s') {name : String}
    (hn : sources.test test name) : sources'.test test name := by
  unfold Sources.test at hn ⊢
  cases hs : sources.find? name with
  | none =>
      rw [hs] at hn
      cases hn
  | some s =>
      obtain ⟨s', hs', hl⟩ := h.like name s hs
      rw [hs] at hn
      rw [hs']
      exact (ht s s' hl).symm.trans hn

/-! ## Inputs -/

theorem readDefault_follows
    {shape shape' : String → Except BuildFault (InputShape BuildFault)}
    (hs : ∀ name, Follows InputShape.Follows (shape name) (shape' name)) (d : InputDefinition) :
    Follows Eq (readDefault shape d) (readDefault shape' d) := by
  unfold readDefault
  split
  · exact .rfl
  · exact readLiteral_follows hs _ _

theorem inputField_follows (h : sources.Within sources')
    {shape shape' : String → Except BuildFault (InputShape BuildFault)}
    (hs : ∀ name, Follows InputShape.Follows (shape name) (shape' name)) (wrongType : BuildFault)
    (d : InputDefinition) :
    Follows Eq (inputField sources shape wrongType d) (inputField sources' shape' wrongType d) := by
  refine .bind (h.check d.type) fun _ _ _ => ?_
  refine .bind (readDefault_follows hs d) fun default default' hd => ?_
  refine .bind (R := Eq) .rfl fun deprecation deprecation' hp => ?_
  subst hd hp
  split
  · rename_i ht
    rw [if_pos (h.test (fun s s' hl => hl.tests.1) ht)]
    exact .ok rfl
  · exact .error

theorem inputFields_follows (h : sources.Within sources')
    {shape shape' : String → Except BuildFault (InputShape BuildFault)}
    (hs : ∀ name, Follows InputShape.Follows (shape name) (shape' name)) (nodes : List TypeNode) :
    Follows Eq (inputFields sources shape nodes) (inputFields sources' shape' nodes) := by
  refine .bind (.mapM fun d _ => inputField_follows h hs _ d) fun fields fields' hf => ?_
  exact .ok (by rw [hf])

/-- How a scalar that is not yet a type is read. -/
theorem leafLiteral_scalar {t t' : NamedType} (hn : t.name = t'.name) {url url' : Option String}
    (ht : t.shape = .scalar url) (ht' : t'.shape = .scalar url') (literal : Value) :
    leafLiteral t literal = leafLiteral t' literal := by
  rw [leafLiteral, leafLiteral, ht, ht', hn]

/-- One step more follows one step more. -/
theorem inputShape_succ_follows (h : sources.Within sources') {fuel fuel' : Nat}
    (hs : ∀ name, Follows InputShape.Follows (inputShape sources fuel name)
      (inputShape sources' fuel' name)) (name : String) :
    Follows InputShape.Follows (inputShape sources (fuel + 1) name)
      (inputShape sources' (fuel' + 1) name) := by
  unfold inputShape
  cases hs : sources.find? name with
  | none => exact .error
  | some s =>
      obtain ⟨s', hs', hl⟩ := h.like name s hs
      rw [hs']
      rcases hl with rfl | hl | hl
      · cases s with
        | ready t =>
            dsimp only
            split
            · exact .ok fun _ => rfl
            · exact .error
        | written node extensions =>
            dsimp only
            split
            · exact .ok fun _ => rfl
            · refine .bind (R := Eq) .rfl fun values values' hv => ?_
              subst hv
              exact .ok fun _ => rfl
            · exact .ok ⟨rfl, .mapError (inputFields_follows h (by assumption) _)⟩
            · exact .error
      · cases hl with
        | scalar hb hn ht =>
            have hname := h.named' name _ _ hs'
            simp only [hb, NamedType.isLeaf, ht, ↓reduceIte]
            exact .ok (leafLiteral_scalar (hn.trans hname) ht rfl)
      · cases hl with
        | scalar hb hn ht =>
            have hname := h.named name _ _ hs
            simp only [hb, NamedType.isLeaf, ht, ↓reduceIte]
            exact .ok (leafLiteral_scalar (hn.trans hname).symm rfl ht)

theorem inputShape_follows (h : sources.Within sources') {fuel fuel' : Nat} (hle : fuel ≤ fuel')
    (name : String) :
    Follows InputShape.Follows (inputShape sources fuel name) (inputShape sources' fuel' name) := by
  induction fuel generalizing fuel' name with
  | zero => exact .error
  | succ fuel ih =>
      obtain ⟨fuel', rfl⟩ : ∃ n, fuel' = n + 1 := ⟨fuel' - 1, by omega⟩
      exact inputShape_succ_follows h (fun name => ih (Nat.le_of_succ_le_succ hle) name) name

end Sources

/-! ## Enough fuel -/

section Fuel

variable {sources sources' : Sources} {fuel fuel' : Nat} {name : String}

theorem Sources.Within.refl (h : sources.Named) : sources.Within sources :=
  ⟨fun _ s hs => ⟨s, hs, .inl rfl⟩, h, h⟩

theorem InputShape.Follows.trans {ε ε' ε'' : Type} {s : InputShape ε} {s' : InputShape ε'}
    {s'' : InputShape ε''} (h : s.Follows s') (h' : s'.Follows s'') : s.Follows s'' := by
  cases s with
  | leaf t =>
      cases s' with
      | leaf t' =>
          cases s'' with
          | leaf t'' => exact fun literal => (h literal).trans (h' literal)
          | object fields oneOf => cases h'
      | object fields oneOf => cases h
  | object fields oneOf =>
      cases s' with
      | leaf t => cases h
      | object fields' oneOf' =>
          cases s'' with
          | leaf t => cases h'
          | object fields'' oneOf'' => exact ⟨h.1.trans h'.1, h.2.trans_eq h'.2⟩

/-- The fields of an input object can be read with so much fuel. -/
def Settled (sources : Sources) (fuel : Nat) (name : String) : Prop :=
  ∃ fields oneOf read, inputShape sources fuel name = .ok (.object fields oneOf)
    ∧ fields () = .ok read

theorem Settled.mono (hn : sources.Named) (h : Settled sources fuel name) (hle : fuel ≤ fuel') :
    Settled sources fuel' name := by
  obtain ⟨fields, oneOf, read, hs, hf⟩ := h
  obtain ⟨s', hs', hl⟩ := inputShape_follows (.refl hn) hle name _ hs
  cases s' with
  | leaf t => cases hl
  | object fields' oneOf' =>
      obtain ⟨read', hf', -⟩ := hl.2 read hf
      exact ⟨fields', oneOf', read', hs', hf'⟩

theorem Settled.mem (h : Settled sources fuel name) : name ∈ sources.map Prod.fst := by
  obtain ⟨fields, oneOf, read, hs, -⟩ := h
  cases fuel with
  | zero => cases hs
  | succ fuel =>
      unfold inputShape at hs
      unfold Sources.find? at hs
      cases ht : standardType? name with
      | some t =>
          rw [ht] at hs
          dsimp only at hs
          split at hs <;> cases hs
      | none =>
          rw [ht] at hs
          cases hl : sources.lookup name with
          | none =>
              rw [hl] at hs
              cases hs
          | some s => exact List.mem_map_of_mem (mem_of_lookup hl)

open scoped Classical in
/-- From some point on, no more input objects can be read with more fuel. -/
theorem exists_settled (hn : sources.Named) : ∃ fuel ≤ sources.length,
    ∀ name, Settled sources (fuel + 2) name → Settled sources (fuel + 1) name := by
  refine Classical.byContradiction fun hnone => ?_
  have hmore : ∀ fuel ≤ sources.length, ∃ name, Settled sources (fuel + 2) name
      ∧ ¬Settled sources (fuel + 1) name := by
    intro fuel hle
    refine Classical.byContradiction fun h => hnone ⟨fuel, hle, fun name hs => ?_⟩
    exact Classical.byContradiction fun hns => h ⟨name, hs, hns⟩
  have hcount : ∀ fuel ≤ sources.length + 1,
      fuel ≤ (sources.map Prod.fst).countP fun name => decide (Settled sources (fuel + 1) name) := by
    intro fuel
    induction fuel with
    | zero => exact fun _ => Nat.zero_le _
    | succ fuel ih =>
        intro hle
        obtain ⟨name, hs, hns⟩ := hmore fuel (by omega)
        refine Nat.lt_of_le_of_lt (ih (by omega)) (List.countP_lt_countP_of_mem (fun x hx => ?_)
          hs.mem (decide_eq_false hns) (decide_eq_true hs))
        exact decide_eq_true ((of_decide_eq_true hx).mono hn (by omega))
  have hlength := List.countP_le_length (l := sources.map Prod.fst)
    (p := fun name => decide (Settled sources (sources.length + 1 + 1) name))
  have hall := hcount _ (Nat.le_refl _)
  rw [List.length_map] at hlength
  omega

theorem inputShape_settled (hn : sources.Named)
    (hs : ∀ name, Settled sources (fuel + 2) name → Settled sources (fuel + 1) name)
    (name : String) : Follows InputShape.Follows (inputShape sources (fuel + 2) name)
      (inputShape sources (fuel + 1) name) := by
  intro s' hs'
  obtain ⟨s, hread⟩ : ∃ s, inputShape sources (fuel + 1) name = .ok s := by
    unfold inputShape at hs' ⊢
    split at hs'
    · cases hs'
    · split at hs'
      · simp [*]
      · cases hs'
    · split at hs' <;> simp_all
  obtain ⟨s'', hs'', hl⟩ := inputShape_follows (.refl hn) (Nat.le_succ (fuel + 1)) name s hread
  cases hs'.symm.trans hs''
  refine ⟨s, hread, ?_⟩
  cases s with
  | leaf t =>
      cases s' with
      | leaf t' => exact fun literal => (hl literal).symm
      | object fields oneOf => cases hl
  | object fields oneOf =>
      cases s' with
      | leaf t' => cases hl
      | object fields' oneOf' =>
          refine ⟨hl.1.symm, fun read hf => ?_⟩
          obtain ⟨fields₁, oneOf₁, read₁, hs₁, hf₁⟩ := hs name ⟨fields', oneOf', read, hs', hf⟩
          cases hread.symm.trans hs₁
          obtain ⟨read', hf', rfl⟩ := hl.2 read₁ hf₁
          cases hf.symm.trans hf'
          exact ⟨_, hf₁, rfl⟩

/-- The fuel of the sources is enough: what any fuel reads, it reads. -/
theorem inputShape_follows_shape (hn : sources.Named) (fuel : Nat) (name : String) :
    Follows InputShape.Follows (inputShape sources fuel name) (sources.shape name) := by
  obtain ⟨start, hle, hs⟩ := exists_settled hn
  have hstable : ∀ more name, Follows InputShape.Follows
      (inputShape sources (start + 1 + more) name) (inputShape sources (start + 1) name) := by
    intro more
    induction more with
    | zero => exact fun name => inputShape_follows (.refl hn) (Nat.le_refl _) name
    | succ more ih =>
        intro name
        exact (inputShape_succ_follows (.refl hn) ih name).trans (inputShape_settled hn hs name)
          fun _ _ _ => .trans
  have hup : Follows InputShape.Follows _ (inputShape sources (start + 1 + fuel) name) :=
    inputShape_follows (.refl hn) (Nat.le_add_left fuel (start + 1)) name
  have hdown : Follows InputShape.Follows _ (sources.shape name) :=
    inputShape_follows (.refl hn) (Nat.succ_le_succ hle) name
  exact (hup.trans (hstable fuel name) fun _ _ _ => .trans).trans hdown fun _ _ _ => .trans

/-- Sources that are alike read the same of named types. -/
theorem shape_follows (h : sources.Within sources') (name : String) :
    Follows InputShape.Follows (sources.shape name) (sources'.shape name) :=
  (inputShape_follows h (Nat.le_refl _) name).trans (inputShape_follows_shape h.named' _ name)
    fun _ _ _ => .trans

end Fuel

/-! ## Members of types -/

section Members

variable {sources sources' : Sources}

theorem argumentsFrom_follows (h : sources.Within sources') (definitions : List InputDefinition) :
    Follows Eq (argumentsFrom sources definitions) (argumentsFrom sources' definitions) := by
  refine .bind (.mapM fun d _ => inputField_follows h (shape_follows h) _ d) fun a b hab => ?_
  exact .ok (by rw [hab])

theorem outputField_follows (h : sources.Within sources') (d : FieldDefinition) :
    Follows Eq (outputField sources d) (outputField sources' d) := by
  refine .bind (h.check d.type) fun _ _ _ => ?_
  refine .bind (argumentsFrom_follows h d.arguments) fun arguments arguments' ha => ?_
  refine .bind (R := Eq) .rfl fun deprecation deprecation' hp => ?_
  subst ha hp
  split
  · rename_i ht
    rw [if_pos (h.test (fun s s' hl => hl.tests.2.1) ht)]
    exact .ok rfl
  · exact .error

theorem outputFields_follows (h : sources.Within sources') (nodes : List TypeNode) :
    Follows Eq (outputFields sources nodes) (outputFields sources' nodes) := by
  refine .bind (.mapM fun d _ => outputField_follows h d) fun fields fields' hf => ?_
  exact .ok (by rw [hf])

theorem knownNames_follows (h : sources.Within sources') (names : List String) :
    Follows Eq (knownNames sources names) (knownNames sources' names) := by
  intro names' hn
  obtain ⟨hk, rfl⟩ := knownNames_eq_ok.mp hn
  exact ⟨_, knownNames_eq_ok.mpr ⟨fun name hm => h.isSome (hk name hm), rfl⟩, rfl⟩

theorem interfacesFrom_follows (h : sources.Within sources') (name : String)
    (nodes : List TypeNode) :
    Follows Eq (interfacesFrom sources name nodes) (interfacesFrom sources' name nodes) := by
  refine .bind (.mapError (knownNames_follows h _)) fun interfaces interfaces' hi => ?_
  subst hi
  split
  · rename_i ht
    rw [if_pos]
    · exact .ok rfl
    · rw [List.all_eq_true] at ht ⊢
      exact fun name hm => h.test (fun s s' hl => hl.tests.2.2.1) (ht name hm)
  · exact .error

theorem membersFrom_follows (h : sources.Within sources') (name : String)
    (nodes : List TypeNode) :
    Follows Eq (membersFrom sources name nodes) (membersFrom sources' name nodes) := by
  refine .bind (.mapError (knownNames_follows h _)) fun members members' hm => ?_
  subst hm
  split
  · rename_i ht
    rw [if_pos]
    · exact .ok rfl
    · rw [List.all_eq_true] at ht ⊢
      exact fun name hm => h.test (fun s s' hl => hl.tests.2.2.2) (ht name hm)
  · exact .error

/-- What a definition says of a type is the same among sources that are alike. -/
theorem shapeOf_follows (h : sources.Within sources') (node : TypeNode)
    (extensions : List TypeNode) :
    Follows Eq (shapeOf sources node extensions) (shapeOf sources' node extensions) := by
  unfold shapeOf
  cases node.body with
  | scalar => exact .rfl
  | object interfaces fields =>
      refine .bind (interfacesFrom_follows h _ _) fun a b hab => ?_
      refine .bind (.mapError (outputFields_follows h _)) fun c d hcd => ?_
      exact .ok (by rw [hab, hcd])
  | interface interfaces fields =>
      refine .bind (interfacesFrom_follows h _ _) fun a b hab => ?_
      refine .bind (.mapError (outputFields_follows h _)) fun c d hcd => ?_
      exact .ok (by rw [hab, hcd])
  | union members => exact .bind (membersFrom_follows h _ _) fun a b hab => .ok (by rw [hab])
  | enum values => exact .rfl
  | inputObject fields =>
      refine .bind (.mapError (inputFields_follows h (shape_follows h) _)) fun a b hab => ?_
      exact .ok (by rw [hab])

theorem type_follows (h : sources.Within sources') (node : TypeNode) (extensions : List TypeNode) :
    Follows Eq ((TypeSource.written node extensions).type sources)
      ((TypeSource.written node extensions).type sources') := by
  refine .bind (shapeOf_follows h node extensions) fun a b hab => ?_
  exact .ok (by rw [hab])

theorem directiveType_follows (h : sources.Within sources') (d : DirectiveDefinition) :
    Follows Eq (directiveType sources d) (directiveType sources' d) := by
  refine .bind (argumentsFrom_follows h d.arguments) fun a b hab => ?_
  exact .ok (by rw [hab])

end Members

end SdlAssembly.Schemas
