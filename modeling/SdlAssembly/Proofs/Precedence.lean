import SdlAssembly.Proofs.Repetition

/-!
# Which extension describes a leaf type

Documents take precedence in their order. In one document every scalar extension is read before
the enum extensions, so a scalar extension overtakes an enum extension of its name that stands
before it. Where none does, the first extension of a name in the text decides, and a document may be
split without a difference.
-/

namespace SdlAssembly.Model

open Grammar Documents Annotation

/-! ## Extensions of a name -/

/-- The first node of a name among those that are read from definitions. -/
def firstNamed? (read : Definition → Option TypeNode) (name : String)
    (definitions : List Definition) : Option TypeNode :=
  (definitions.filterMap read).find? fun node => node.name == name

/-- The node of an extension of a scalar or an enum. -/
def leafExtension? (d : Definition) : Option TypeNode :=
  (scalarExtension? d).or (enumExtension? d)

/-- The first extension of a name in the text is that of an enum, and there is a scalar extension of
the name too. -/
def Overtaken (name : String) (definitions : List Definition) : Prop :=
  (∃ node, firstNamed? leafExtension? name definitions = some node ∧ node.body ≠ .scalar)
    ∧ (firstNamed? scalarExtension? name definitions).isSome

/-- The extension of a name that definitions are read for: a scalar goes before an enum. -/
def preferred? (name : String) (definitions : List Definition) : Option TypeNode :=
  (firstNamed? scalarExtension? name definitions).or (firstNamed? enumExtension? name definitions)

/-- The extension that decides on a name: the preferred one of the first document with any. -/
def deciding? (name : String) (documents : List Document) : Option TypeNode :=
  documents.findSome? fun d => preferred? name d.definitions

/-- The first document that extends a scalar or an enum of a name. -/
def firstExtending? (name : String) (documents : List Document) : Option Document :=
  documents.find? fun d => (firstNamed? leafExtension? name d.definitions).isSome

section Named

variable {read : Definition → Option TypeNode} {name : String} {definitions : List Definition}
  {node : TypeNode}

theorem firstNamed?_cons (read : Definition → Option TypeNode) (name : String) (d : Definition)
    (definitions : List Definition) : firstNamed? read name (d :: definitions) =
      ((read d).filter fun node => node.name == name).or (firstNamed? read name definitions) := by
  unfold firstNamed?
  cases h : read d with
  | none =>
      rw [List.filterMap_cons_none h]
      rfl
  | some node =>
      rw [List.filterMap_cons_some h, List.find?_cons]
      cases hn : node.name == name <;> simp [Option.filter, hn]

theorem firstNamed?_append (read : Definition → Option TypeNode) (name : String)
    (xs ys : List Definition) : firstNamed? read name (xs ++ ys) =
      (firstNamed? read name xs).or (firstNamed? read name ys) := by
  rw [firstNamed?, List.filterMap_append, List.find?_append]
  rfl

theorem firstNamed?_scalar (h : firstNamed? scalarExtension? name definitions = some node) :
    node.body = .scalar := by
  obtain ⟨d, -, hd⟩ := List.mem_filterMap.mp (List.mem_of_find?_eq_some h)
  exact (scalarExtension?_eq_some.mp hd).2

/-! ## One document -/

/-- A definition extends a scalar or an enum or neither. -/
theorem extension_cases (d : Definition) :
    (scalarExtension? d = none ∧ enumExtension? d = none)
      ∨ (∃ node, scalarExtension? d = some node ∧ enumExtension? d = none ∧ node.body = .scalar)
      ∨ ∃ node, scalarExtension? d = none ∧ enumExtension? d = some node ∧ node.body ≠ .scalar := by
  cases hs : scalarExtension? d with
  | some node =>
      obtain ⟨rfl, hb⟩ := scalarExtension?_eq_some.mp hs
      refine .inr (.inl ⟨node, rfl, Option.eq_none_iff_forall_ne_some.mpr fun node' he => ?_, hb⟩)
      obtain ⟨hd, values, hv⟩ := enumExtension?_eq_some.mp he
      cases hd
      cases hb.symm.trans hv
  | none =>
      cases he : enumExtension? d with
      | none => exact .inl ⟨rfl, rfl⟩
      | some node =>
          obtain ⟨-, values, hv⟩ := enumExtension?_eq_some.mp he
          exact .inr (.inr ⟨node, rfl, rfl, by simp [hv]⟩)

/-- The first extension of a name in the text is the first of its kind. -/
theorem firstNamed?_leaf (name : String) (definitions : List Definition) :
    (firstNamed? leafExtension? name definitions = none ∧ preferred? name definitions = none)
      ∨ ∃ node, firstNamed? leafExtension? name definitions = some node
        ∧ (node.body = .scalar ∧ firstNamed? scalarExtension? name definitions = some node
          ∨ node.body ≠ .scalar ∧ firstNamed? enumExtension? name definitions = some node) := by
  induction definitions with
  | nil => exact .inl ⟨rfl, rfl⟩
  | cons d definitions ih =>
      simp only [preferred?, firstNamed?_cons, leafExtension?] at ih ⊢
      rcases extension_cases d with ⟨hs, he⟩ | ⟨node, hs, he, hb⟩ | ⟨node, hs, he, hb⟩
      · simpa [hs, he] using ih
      · cases hn : node.name == name with
        | true =>
            exact .inr ⟨node, by simp [hs, Option.filter, hn],
              .inl ⟨hb, by simp [hs, Option.filter, hn]⟩⟩
        | false => simpa [hs, he, Option.filter, hn] using ih
      · cases hn : node.name == name with
        | true =>
            exact .inr ⟨node, by simp [hs, he, Option.filter, hn],
              .inr ⟨hb, by simp [he, Option.filter, hn]⟩⟩
        | false => simpa [hs, he, Option.filter, hn] using ih

/-- The first extension of a name in the text is preferred exactly if it is not overtaken. -/
theorem preferred?_eq_first :
    preferred? name definitions = firstNamed? leafExtension? name definitions ↔
      ¬Overtaken name definitions := by
  unfold Overtaken preferred?
  rcases firstNamed?_leaf name definitions with ⟨hl, hp⟩ | ⟨node, hl, ⟨hb, hs⟩ | ⟨hb, he⟩⟩
  · rw [preferred?] at hp
    simp [hl, hp]
  · simp [hl, hb, hs]
  · rw [hl, he]
    cases hs : firstNamed? scalarExtension? name definitions with
    | none => simp
    | some scalar =>
        have hne : scalar ≠ node := fun h => hb (h ▸ firstNamed?_scalar hs)
        simp [hb, hne]

theorem preferred?_overtaken (h : Overtaken name definitions) :
    preferred? name definitions = firstNamed? scalarExtension? name definitions := by
  obtain ⟨-, hs⟩ := h
  obtain ⟨scalar, hs⟩ := Option.isSome_iff_exists.mp hs
  rw [preferred?, hs, Option.some_or]

theorem preferred?_eq_none :
    preferred? name definitions = none ↔ firstNamed? leafExtension? name definitions = none := by
  rcases firstNamed?_leaf name definitions with ⟨hl, hp⟩ | ⟨node, hl, ⟨-, hs⟩ | ⟨-, he⟩⟩
  · simp [hl, hp]
  · simp [preferred?, hl, hs]
  · simp [preferred?, hl, he]

/-! ## Parts of a document -/

/-- The first part with an extension of a name is overtaken only if the whole is. -/
theorem Overtaken.of_part {xs ys : List Definition} (h : Overtaken name xs) :
    Overtaken name (xs ++ ys) := by
  obtain ⟨⟨node, hl, hb⟩, hs⟩ := h
  obtain ⟨scalar, hs⟩ := Option.isSome_iff_exists.mp hs
  exact ⟨⟨node, by rw [firstNamed?_append, hl, Option.some_or], hb⟩,
    by rw [firstNamed?_append, hs]; rfl⟩

theorem Overtaken.of_rest {xs ys : List Definition}
    (hx : firstNamed? leafExtension? name xs = none) (h : Overtaken name ys) :
    Overtaken name (xs ++ ys) := by
  obtain ⟨⟨node, hl, hb⟩, hs⟩ := h
  have hscalar : firstNamed? scalarExtension? name xs = none := by
    have hp := preferred?_eq_none.mpr hx
    rw [preferred?, Option.or_eq_none_iff] at hp
    exact hp.1
  exact ⟨⟨node, by rw [firstNamed?_append, hx, Option.none_or, hl], hb⟩,
    by rw [firstNamed?_append, hscalar, Option.none_or]; exact hs⟩

/-- Parts of a document decide as the document does, unless it is overtaken. -/
theorem deciding?_parts {parts : List Document}
    (h : ¬Overtaken name (parts.flatMap (·.definitions))) :
    deciding? name parts = firstNamed? leafExtension? name (parts.flatMap (·.definitions)) := by
  induction parts with
  | nil => rfl
  | cons part parts ih =>
      rw [List.flatMap_cons] at h ⊢
      have hpart := preferred?_eq_first.mpr fun hp => h hp.of_part
      rw [deciding?, List.findSome?_cons, hpart, firstNamed?_append]
      cases hl : firstNamed? leafExtension? name part.definitions with
      | some node => rfl
      | none => exact ih fun hr => h (hr.of_rest hl)

end Named

/-! ## Registries -/

section Registries

variable {registry : LeafTypes} {name : String}

theorem collectAllLeafTypes_value (registry : LeafTypes) (documents : List Document) :
    (collectAllLeafTypes registry documents).value =
      registry.addAll ((documents.flatMap leafExtensions).map fun node =>
        (node.name, LeafType.ofExtension node)) := by
  unfold collectAllLeafTypes collectLeafTypes
  rw [foldl_andThen_value, Registry.addAll, List.foldl_map, List.foldl_flatMap]
  simp only [foldl_andThen_value, registerLeafType_value]

theorem find?_leafExtensions (documents : List Document) (name : String) :
    (documents.flatMap leafExtensions).find? (fun node => node.name == name) =
      deciding? name documents := by
  rw [List.find?_flatMap]
  refine congrArg (documents.findSome? ·) (funext fun d => ?_)
  rw [leafExtensions_eq, List.find?_append]
  rfl

/-- The entry of a name: the one that was there, or what the deciding extension describes. -/
theorem get?_collectAllLeafTypes (registry : LeafTypes) (documents : List Document)
    (name : String) :
    (collectAllLeafTypes registry documents).value.get? name =
      (registry.get? name).or ((deciding? name documents).map LeafType.ofExtension) := by
  rw [collectAllLeafTypes_value, Registry.get?_addAll, Registry.lookup_map,
    find?_leafExtensions]

/-- The first document with an extension of a name decides. -/
theorem deciding?_eq_preferred? {documents : List Document} {d : Document}
    (h : firstExtending? name documents = some d) :
    deciding? name documents = preferred? name d.definitions
      ∧ firstNamed? leafExtension? name (documents.flatMap (·.definitions)) =
        firstNamed? leafExtension? name d.definitions := by
  induction documents with
  | nil => cases h
  | cons first documents ih =>
      rw [firstExtending?, List.find?_cons] at h
      rw [deciding?, List.findSome?_cons, List.flatMap_cons, firstNamed?_append]
      cases hl : firstNamed? leafExtension? name first.definitions with
      | some node =>
          rw [hl] at h
          cases h
          rw [hl, Option.some_or]
          cases hp : preferred? name d.definitions with
          | some preferred => exact ⟨rfl, rfl⟩
          | none => cases hl.symm.trans (preferred?_eq_none.mp hp)
      | none =>
          rw [hl] at h
          rw [preferred?_eq_none.mpr hl, Option.none_or]
          exact ih h

theorem deciding?_eq_none {documents : List Document}
    (h : firstExtending? name documents = none) :
    deciding? name documents = none
      ∧ firstNamed? leafExtension? name (documents.flatMap (·.definitions)) = none := by
  have hnone : ∀ d ∈ documents, firstNamed? leafExtension? name d.definitions = none := by
    simpa [firstExtending?] using h
  induction documents with
  | nil => exact ⟨rfl, rfl⟩
  | cons first documents ih =>
      obtain ⟨hfirst, hrest⟩ := List.forall_mem_cons.mp hnone
      rw [deciding?, List.findSome?_cons, preferred?_eq_none.mpr hfirst, List.flatMap_cons,
        firstNamed?_append, hfirst, Option.none_or]
      exact ih (by simpa [firstExtending?] using hrest) hrest

/-- The entry of a name is described by the first extension of the name as a scalar or an enum in the
documents, unless that is overtaken; then by the first scalar extension in its document. A document
that has no overtaken extension of the name may be split. -/
theorem collectAllLeafTypes_precedence (registry : LeafTypes) (documents : List Document)
    (name : String) :
    (collectAllLeafTypes registry documents).value.get? name =
        (registry.get? name).or ((deciding? name documents).map LeafType.ofExtension)
      ∧ (∀ d, firstExtending? name documents = some d → Overtaken name d.definitions →
          deciding? name documents = firstNamed? scalarExtension? name d.definitions)
      ∧ ((∀ d, firstExtending? name documents = some d → ¬Overtaken name d.definitions) →
          deciding? name documents =
            firstNamed? leafExtension? name (documents.flatMap (·.definitions)))
      ∧ ∀ (before parts after : List Document) (d : Document), ¬Overtaken name d.definitions →
          parts.flatMap (·.definitions) = d.definitions →
          (collectAllLeafTypes registry (before ++ parts ++ after)).value.get? name =
            (collectAllLeafTypes registry (before ++ d :: after)).value.get? name := by
  refine ⟨get?_collectAllLeafTypes registry documents name, fun d hd ho => ?_, fun h => ?_,
    fun before parts after d ho hparts => ?_⟩
  · rw [(deciding?_eq_preferred? hd).1, preferred?_overtaken ho]
  · cases hd : firstExtending? name documents with
    | none =>
        obtain ⟨hdeciding, hfirst⟩ := deciding?_eq_none hd
        rw [hdeciding, hfirst]
    | some d =>
        obtain ⟨hdeciding, hfirst⟩ := deciding?_eq_preferred? hd
        rw [hdeciding, hfirst, preferred?_eq_first.mpr (h d hd)]
  · have hd : deciding? name parts = preferred? name d.definitions := by
      rw [deciding?_parts (hparts ▸ ho), hparts, preferred?_eq_first.mpr ho]
    have hsplit : deciding? name (before ++ parts ++ after) =
        deciding? name (before ++ d :: after) := by
      unfold deciding? at hd ⊢
      rw [List.append_assoc, List.findSome?_append, List.findSome?_append, List.findSome?_append,
        hd, List.findSome?_cons]
      cases preferred? name d.definitions <;> rfl
    rw [get?_collectAllLeafTypes, get?_collectAllLeafTypes, hsplit]

end Registries

/-! ## Names that are extended as both kinds -/

/-- An extension with a directive that says how its type is represented at run time. -/
def extensionAs (runtimeType name : String) (body : TypeBody) : Definition :=
  .typeExtension ⟨none, name,
    [⟨"runtimeType", [⟨"name", .string runtimeType false, none⟩], none⟩], body⟩

/-- A name is extended as an enum and then as a scalar. -/
def contested : List Definition :=
  [extensionAs "accounts.Money" "Money" (.enum []), extensionAs "decimal.Decimal" "Money" .scalar]

/-- A name is extended as a scalar and then as an enum, between extensions of another. -/
def settledMoney : List Definition :=
  [extensionAs "accounts.Role" "Role" (.enum []), extensionAs "decimal.Decimal" "Money" .scalar,
    extensionAs "accounts.Money" "Money" (.enum [])]

theorem collectAllLeafTypes_precedence_settled :
    ¬Overtaken "Money" settledMoney
      ∧ (collectAllLeafTypes {} (settledMoney.map fun d => ⟨[d], none⟩)).value.get? "Money" =
        (collectAllLeafTypes {} [⟨settledMoney, none⟩]).value.get? "Money"
      ∧ (collectAllLeafTypes {} [⟨settledMoney, none⟩]).value.get? "Money" =
        some ⟨"Money", some "decimal.Decimal", none⟩ := by
  have ho : ¬Overtaken "Money" settledMoney := preferred?_eq_first.mp (by
    simp [preferred?, firstNamed?, leafExtension?, scalarExtension?, enumExtension?, settledMoney,
      extensionAs])
  obtain ⟨hget, -, -, hsplit⟩ :=
    collectAllLeafTypes_precedence {} [⟨settledMoney, none⟩] "Money"
  have hparts := hsplit [] (settledMoney.map fun d => ⟨[d], none⟩) [] ⟨settledMoney, none⟩ ho rfl
  rw [List.nil_append, List.append_nil, List.nil_append] at hparts
  have hsome : ((({} : LeafTypes).get? "Money").or
      ((deciding? "Money" [⟨settledMoney, none⟩]).map LeafType.ofExtension)) =
        some ⟨"Money", some "decimal.Decimal", none⟩ := by
    decide +kernel
  exact ⟨ho, hparts, hget.trans hsome⟩

/-- The first extension of the name does not describe its entry, and splitting the document changes
the entry. -/
theorem collectAllLeafTypes_contested :
    (collectAllLeafTypes {} [⟨contested, none⟩]).value.get? "Money" ≠
        (firstNamed? leafExtension? "Money" contested).map LeafType.ofExtension
      ∧ (collectAllLeafTypes {} (contested.map fun d => ⟨[d], none⟩)).value.get? "Money" ≠
        (collectAllLeafTypes {} [⟨contested, none⟩]).value.get? "Money" := by
  decide

end SdlAssembly.Model
