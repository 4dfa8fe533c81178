import SdlAssembly.Proofs.Schema.Retelling

/-!
# Schemas that are told and built again

Sources that tell a legible schema give its types again, each with the defaults that its literals are
read as. The defaults of input objects are read in the order in which they have each other in them.
-/

namespace SdlAssembly.Schemas

open Grammar Except

/-! ## Inputs of a schema -/

section Inputs

variable {schema : Schema} {t : NamedType} {name : String}

theorem NamedType.Legible.inputs {type? : String → Option NamedType} (h : t.Legible type?) :
    ∀ input ∈ t.inputs, input.Legible type? := by
  have hshape := h.shape
  unfold NamedType.inputs NamedType.fields NamedType.inputFields
  cases hs : t.shape with
  | object interfaces fields | interface interfaces fields =>
      rw [hs] at hshape
      intro input hi
      rw [List.append_nil] at hi
      obtain ⟨field, hf, hi⟩ := List.mem_flatMap.mp hi
      exact (hshape.2.2 field hf).arguments input hi
  | inputObject fields oneOf =>
      rw [hs] at hshape
      exact fun input hi => hshape.2 input (by simpa using hi)
  | _ => simp

theorem Schema.Legible.inputs (h : schema.Legible) :
    ∀ input ∈ schema.inputs, input.Legible schema.type? := by
  intro input hi
  rcases List.mem_append.mp hi with hi | hi
  · obtain ⟨d, hd, hi⟩ := List.mem_flatMap.mp hi
    obtain ⟨hd, hs⟩ := List.mem_filter.mp hd
    exact (h.directives d hd (by simpa using hs)).arguments input hi
  · obtain ⟨t, ht, hi⟩ := List.mem_flatMap.mp hi
    obtain ⟨ht, hs⟩ := List.mem_filter.mp ht
    exact (h.types t ht (by simpa using hs)).inputs input hi

theorem mem_inputs_type (ht : schema.type? name = some t) (hs : isStandardType name = false) :
    ∀ input ∈ t.inputs, input ∈ schema.inputs := by
  intro input hi
  have hname : t.name = name := find?_name ht
  have hshown : t ∈ schema.types.filter fun t => !isStandardType t.name :=
    List.mem_filter.mpr ⟨List.mem_of_find?_eq_some ht, by simp [hname, hs]⟩
  exact List.mem_append_right _ (List.mem_flatMap.mpr ⟨t, hshown, hi⟩)

theorem mem_inputs_field (ht : schema.type? name = some t) (hs : isStandardType name = false) :
    ∀ field ∈ t.inputFields, field ∈ schema.inputs :=
  fun field hf => mem_inputs_type ht hs field (List.mem_append_right _ hf)

theorem Schema.Legible.type (h : schema.Legible) (ht : schema.type? name = some t)
    (hs : isStandardType name = false) : t.Legible schema.type? :=
  h.types t (List.mem_of_find?_eq_some ht) (by rwa [find?_name ht])

end Inputs

/-! ## Literals -/

section Literals

variable {schema : Schema} {sources : Sources} {name : String} {t : NamedType}
  (h : Retells schema sources) (hl : schema.Legible)
include h hl

/-- A leaf is read as it was. -/
theorem Retells.leaf (ht : schema.type? name = some t) (hleaf : t.isLeaf) (fuel : Nat) :
    ∃ t', inputShape sources (fuel + 1) name = .ok (.leaf t')
      ∧ ∀ literal, leafLiteral t' literal = leafLiteral t literal := by
  have hname : t.name = name := find?_name ht
  cases hs : isStandardType name with
  | true =>
      refine ⟨t, ?_, fun _ => rfl⟩
      rw [inputShape, (h.standard name t ht hs).1]
      exact if_pos hleaf
  | false =>
      cases hshape : t.shape with
      | scalar url =>
          have hun : t.unspecified.shape = .scalar none := by rw [NamedType.unspecified, hshape]
          refine ⟨t.unspecified, ?_, leafLiteral_scalar unspecified_name hun hshape⟩
          rw [inputShape, h.scalar name t url ht hs hshape]
          exact if_pos (by rw [NamedType.isLeaf, hun])
      | enum values =>
          obtain ⟨node, hf, htold⟩ := h.told name t ht hs (by simp [hshape])
          have hbody := body_of_unplaced htold.body
          have hlegible := (hl.type ht hs).shape
          rw [hshape] at hbody hlegible
          obtain ⟨ds, hb, hds⟩ := hbody
          refine ⟨{ name := name, shape := .enum values }, ?_, fun literal => ?_⟩
          · rw [inputShape, hf]
            simp only [hb]
            exact bind_of_ok (enumValues_told hlegible.1 hb hds)
          · rw [leafLiteral, leafLiteral, hshape]
      | object | interface | union | inputObject => simp [NamedType.isLeaf, hshape] at hleaf

variable (hw : ∀ input ∈ schema.inputs, schema.CanWrite input)
include hw

/-- Input objects of low rank are read again with little fuel. -/
theorem Retells.readsAgain_fuel {rank : String → Nat}
    (hr : ∀ name t, schema.type? name = some t → ∀ f ∈ t.inputFields, ∀ c ∈ f.default,
      Fits schema.type? (fun other => rank other < rank name) c f.type) (fuel : Nat) :
    ReadsAgain (inputShape sources (fuel + 1)) schema.type? fun name => rank name < fuel := by
  induction fuel with
  | zero =>
      exact ⟨fun _ _ ht hleaf => h.leaf hl ht hleaf 0,
        fun _ _ _ _ _ _ hlt => (Nat.not_lt_zero _ hlt).elim⟩
  | succ fuel ih =>
      refine ⟨fun _ _ ht hleaf => h.leaf hl ht hleaf _, ?_⟩
      intro name t fields oneOf ht hshape hlt
      cases hs : isStandardType name with
      | true =>
          have hi := (h.standard name t ht hs).2
          simp [NamedType.isInputObject, hshape] at hi
      | false =>
          obtain ⟨node, hf, htold⟩ := h.told name t ht hs (by simp [hshape])
          have hfields : t.inputFields = fields := by rw [NamedType.inputFields, hshape]
          have hbody := body_of_unplaced htold.body
          have hlegible := (hl.type ht hs).shape
          rw [hshape] at hbody hlegible
          obtain ⟨ds, hb, hds⟩ := hbody
          have hback : ∀ f ∈ fields,
              f.ReadBack schema.type? (inputShape sources (fuel + 1)) := by
            intro f hm c hc
            rw [← hfields] at hm
            refine rereads_fits ih ((hr name t ht f hm c hc).mono fun other ho => ?_) ?_
            · exact Nat.lt_of_lt_of_le ho (Nat.le_of_lt_succ hlt)
            · exact hw f (mem_inputs_field ht hs f hm) c hc
          have hread := inputFields_told h hlegible.2 hlegible.1 hback hb hds
          refine ⟨_, fields.map _, htold.oneOf fields oneOf hshape ▸ inputShape_inputObject _ hf hb,
            congrArg (Except.mapError _) hread, ?_⟩
          refine List.forall₂_map_right_iff.mpr (List.forall₂_same.mpr fun f _ => ⟨rfl, rfl, ?_⟩)
          intro hnone
          rw [InputField.retold, hnone]
          rfl

/-- Literals of all types are read again. -/
theorem Retells.readsAgain : ReadsAgain sources.shape schema.type? fun _ => True := by
  obtain ⟨rank, hr⟩ := hl.ranked
  refine ⟨fun _ _ ht hleaf => h.leaf hl ht hleaf _, fun name t fields oneOf ht hshape _ => ?_⟩
  obtain ⟨expected, found, hs, hf, he⟩ := (h.readsAgain_fuel hl hw hr (rank name + 1)).object
    name t fields oneOf ht hshape (Nat.lt_succ_self _)
  obtain ⟨s', hs', hfollows⟩ := inputShape_follows_shape h.named _ name _ hs
  cases s' with
  | leaf t' => cases hfollows
  | object expected' oneOf' =>
      obtain ⟨rfl, hfollows⟩ := hfollows
      obtain ⟨found', hf', rfl⟩ := hfollows found hf
      exact ⟨expected', found, hs', hf', he⟩

/-- Every default is read back. -/
theorem Retells.readBack :
    ∀ input ∈ schema.inputs, input.ReadBack schema.type? sources.shape := by
  intro input hi c hc
  exact rereads_fits (h.readsAgain hl hw) ((hl.inputs input hi).default c hc) (hw input hi c hc)

end Literals

end SdlAssembly.Schemas
