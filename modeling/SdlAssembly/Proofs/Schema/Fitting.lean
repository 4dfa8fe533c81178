import SdlAssembly.Proofs.Schema.Literals

/-!
# Constants that are read

A constant that was read from a literal under a type fits the type.
-/

namespace SdlAssembly.Schemas

open Grammar Lexer

/-! ## Constants that fit -/

section Fits

variable {type? type?' : String → Option NamedType} {readable readable' : String → Prop}
  {c : Constant} {type : TypeRef}

theorem Fits.mono (h : Fits type? readable c type) (hr : ∀ name, readable name → readable' name) :
    Fits type? readable' c type := by
  induction h with
  | null hn => exact .null hn
  | list hl _ ih => exact .list hl ih
  | leaf hk hl hp hread hn hnl => exact .leaf hk hl hp hread hn hnl
  | object hk hs hread hnames hd _ ha hsingle hnl ih =>
      exact .object hk hs (hr _ hread) hnames hd ih ha hsingle hnl

theorem fits_nonNull (h : Fits type? readable c type) (hn : c ≠ .null) :
    Fits type? readable c (.nonNull type) := by
  cases h with
  | null => exact (hn rfl).elim
  | list hl hf => exact .list hl hf
  | leaf hk hl hp hread hn hnl => exact .leaf hk hl hp hread hn hnl
  | object hk hs hread hnames hd hf ha hsingle hnl =>
      exact .object hk hs hread hnames hd hf ha hsingle hnl

/-- What fits the innermost type fits in lists of it. -/
theorem fits_inLists (hn : c ≠ .null) (h : ∀ base : TypeRef, base.core = type.core →
    (∀ item, base.nullable ≠ .list item) → Fits type? readable c base) :
    Fits type? readable (inLists type.listDepth c) type := by
  have hne : ∀ (depth : Nat) (c : Constant), c ≠ .null → inLists depth c ≠ .null := by
    intro depth
    induction depth with
    | zero => exact fun _ h => h
    | succ depth ih => exact fun c _ => ih _ (by simp)
  induction type with
  | named name => exact h (.named name) rfl (by simp [TypeRef.nullable])
  | list item ih =>
      rw [TypeRef.listDepth, inLists, inLists_list]
      exact .list rfl (by simpa using ih h)
  | nonNull inner ih => exact fits_nonNull (ih h) (hne _ c hn)

/-- What fits in one place fits in another where the same names stand for the same. -/
theorem Fits.congr (h : Fits type? readable c type) (hn : type?' type.core = type? type.core)
    (hc : ∀ name t, type?' name = some t → ∀ f ∈ t.inputFields,
      type?' f.type.core = type? f.type.core) : Fits type?' readable c type := by
  induction h with
  | null hnull => exact .null hnull
  | @list items type item hl _ ih =>
      have hcore : item.core = type.core := by rw [← core_nullable type, hl, TypeRef.core]
      exact .list hl fun c hm => ih c hm (hcore ▸ hn)
  | leaf hk hl hp hread hnull hnl => exact .leaf (hn.trans hk) hl hp hread hnull hnl
  | object hk hs hread hnames hd _ ha hsingle hnl ih =>
      refine .object (hn.trans hk) hs hread hnames hd (fun f hm c hv => ih f hm c hv ?_) ha hsingle hnl
      exact hc _ _ (hn.trans hk) f (by simpa [NamedType.inputFields, hs] using hm)

end Fits

/-! ## Reading -/

/-- Literals are read as the types say: a name is read as a leaf that stands for a type that reads
literals alike, or field by field, with the fields of its type and defaults that fit them. -/
structure ReadsTypes {ε : Type} (shape : String → Except ε (InputShape ε))
    (type? : String → Option NamedType) (readable : String → Prop) : Prop where
  leaf : ∀ name t, shape name = .ok (.leaf t) → ∃ t', type? name = some t' ∧ t'.isLeaf
    ∧ ∀ literal, leafLiteral t literal = leafLiteral t' literal
  object : ∀ name expected oneOf fields, shape name = .ok (.object expected oneOf) →
    expected () = .ok fields → readable name
      ∧ (∃ t, type? name = some t ∧ t.shape = .inputObject fields oneOf)
      ∧ (∀ f ∈ fields, IsName f.name) ∧ (fields.map InputField.name).Nodup
      ∧ ∀ f ∈ fields, ∀ c ∈ f.default, Fits type? readable c f.type

section Reading

variable {ε : Type} {shape : String → Except ε (InputShape ε)}
  {type? : String → Option NamedType} {readable : String → Prop}

theorem leafLiteral_eq_null {t : NamedType} {literal : Value}
    (h : leafLiteral t literal = some .null) : literal = .null := by
  have hbuiltin : ∀ scalar, builtinLiteral scalar literal ≠ some .null := by
    intro scalar hb
    unfold builtinLiteral at hb
    split at hb
    · obtain ⟨n, -, hb⟩ := Option.bind_eq_some_iff.mp hb
      split at hb <;> cases hb
    all_goals cases hb
  have huntyped : untyped literal = some .null → literal = .null := by
    intro hu
    cases literal with
    | null => rfl
    | int text =>
        rw [untyped] at hu
        cases hb : boundedInt? text <;> simp [hb] at hu
    | list items =>
        obtain ⟨read, -, hu⟩ := Option.map_eq_some_iff.mp hu
        cases hu
    | object fields =>
        obtain ⟨read, -, hu⟩ := Option.map_eq_some_iff.mp hu
        cases hu
    | _ => cases hu
  unfold leafLiteral at h
  split at h
  · split at h
    · split at h <;> cases h
    · cases h
  · split at h
    · exact (hbuiltin _ h).elim
    · exact huntyped h

/-- The value that is read for a field, or else its default. -/
def valueOf (read? : InputField → Except ε (Option (Option Constant))) (f : InputField) :
    Option Constant :=
  match read? f with
  | .ok (some given) => given
  | _ => f.default

/-- Reading the fields of an object goes on after the first one, which has a value unless it need
not be given. -/
theorem objectFields_cons_eq {read? : InputField → Except ε (Option (Option Constant))}
    {f : InputField} {fields : List InputField} {read : List (String × Constant)}
    (h : objectFields read? (f :: fields) = .ok (some read)) :
    ∃ rest, objectFields read? fields = .ok (some rest) ∧
      match valueOf read? f with
      | none => read = rest ∧ f.default = none ∧ f.type.isNonNull = false
      | some c => read = (f.name, c) :: rest := by
  obtain ⟨value, hv, h⟩ := Except.bind_eq_ok h
  unfold valueOf
  rw [hv]
  rcases value with _ | _ | c
  · -- the field is not given, and its default stands for it
    dsimp only at h
    split at h
    · rename_i c hd
      obtain ⟨rest, hr, h⟩ := Except.map_eq_ok h
      obtain ⟨rest, rfl, rfl⟩ := Option.map_eq_some_iff.mp h
      exact ⟨rest, hr, by rw [hd]⟩
    · rename_i hd
      split at h
      · cases h
      · rename_i hnull
        exact ⟨read, h, by simp [hd, hnull]⟩
  · cases h
  · obtain ⟨rest, hr, h⟩ := Except.map_eq_ok h
    obtain ⟨rest, rfl, rfl⟩ := Option.map_eq_some_iff.mp h
    exact ⟨rest, hr, rfl⟩

/-- The values of an object are those that were given, or else the defaults of its fields. -/
theorem objectFields_eq_given {read? : InputField → Except ε (Option (Option Constant))}
    {fields : List InputField} {read : List (String × Constant)}
    (h : objectFields read? fields = .ok (some read)) :
    ∃ value? : InputField → Option Constant, read = givenFields fields value?
      ∧ (∀ f ∈ fields, ∀ c, value? f = some c → read? f = .ok (some (some c)) ∨ c ∈ f.default)
      ∧ ∀ f ∈ fields, value? f = none → f.default = none ∧ f.type.isNonNull = false := by
  have hvalue : ∀ f c, valueOf read? f = some c → read? f = .ok (some (some c)) ∨ c ∈ f.default := by
    intro f c hc
    unfold valueOf at hc
    split at hc
    · rename_i given hread
      exact .inl (hc ▸ hread)
    · exact .inr hc
  refine ⟨valueOf read?, ?_, fun f _ => hvalue f, ?_⟩
  · induction fields generalizing read with
    | nil =>
        cases h
        rfl
    | cons f fields ih =>
        obtain ⟨rest, hr, hf⟩ := objectFields_cons_eq h
        rw [givenFields_cons, ← ih hr]
        cases hv : valueOf read? f with
        | none =>
            rw [hv] at hf
            exact hf.1
        | some c =>
            rw [hv] at hf
            exact hf
  · induction fields generalizing read with
    | nil => simp
    | cons f fields ih =>
        obtain ⟨rest, hr, hf⟩ := objectFields_cons_eq h
        refine List.forall_mem_cons.mpr ⟨fun hn => ?_, ih hr⟩
        rw [hn] at hf
        exact hf.2

theorem fits_inLists_leaf (h : ReadsTypes shape type? readable) {t : NamedType} {literal : Value}
    {type : TypeRef} {c : Constant} (hp : literal.Proper true) (hnull : literal ≠ .null)
    (hs : shape type.core = .ok (.leaf t))
    (hc : (leafLiteral t literal).map (inLists type.listDepth) = some c) :
    Fits type? readable c type := by
  obtain ⟨value, hv, rfl⟩ := Option.map_eq_some_iff.mp hc
  obtain ⟨t', hk, hleaf, hread⟩ := h.leaf _ t hs
  have hn : value ≠ .null := by
    rintro rfl
    exact hnull (leafLiteral_eq_null hv)
  exact fits_inLists hn fun base hb hnl =>
    .leaf (hb ▸ hk) hleaf hp ((hread literal).symm.trans hv) hn hnl

/-- The object that is read field by field fits. -/
theorem fits_read (h : ReadsTypes shape type? readable) {type : TypeRef}
    {expected : Unit → Except ε (List InputField)} {oneOf : Bool} {found : List InputField}
    {read? : InputField → Except ε (Option (Option Constant))} {read : List (String × Constant)}
    (hs : shape type.core = .ok (.object expected oneOf)) (hf : expected () = .ok found)
    (hv : ∀ f ∈ found, ∀ c, read? f = .ok (some (some c)) → Fits type? readable c f.type)
    (hread : objectFields read? found = .ok (some read)) (hsingle : oneOf → singleField read) :
    Fits type? readable (inLists type.listDepth (.object read)) type := by
  obtain ⟨value?, rfl, hgiven, habsent⟩ := objectFields_eq_given hread
  obtain ⟨hreadable, ⟨t, hk, hshape⟩, hnames, hd, hdefaults⟩ := h.object _ _ _ _ hs hf
  refine fits_inLists (by simp) fun base hb hnl => ?_
  rw [← hb] at hk hreadable
  refine .object hk hshape hreadable hnames hd (fun f hm c hc => ?_) habsent hsingle hnl
  exact (hgiven f hm c hc).elim (hv f hm c) (hdefaults f hm c)

mutual

/-- What is read from a literal under a type fits it. -/
theorem fits_readLiteral (h : ReadsTypes shape type? readable) : ∀ (literal : Value)
    (type : TypeRef) (c : Constant), literal.Proper true →
    readLiteral shape literal type = .ok (some c) → Fits type? readable c type
  | .null, type, c, _, hr => by
      rw [readLiteral] at hr
      split at hr
      · cases hr
      · rename_i hn
        cases hr
        exact .null (Bool.eq_false_iff.mpr hn)
  | .list items, type, c, hp, hr => by
      rw [readLiteral] at hr
      split at hr
      · rename_i item hn
        obtain ⟨cs, hcs, hr⟩ := Except.bind_eq_ok hr
        obtain ⟨cs, rfl, rfl⟩ := Option.map_eq_some_iff.mp (Except.ok.inj hr)
        exact .list hn (fits_readItems h items item cs hp hcs)
      · rename_i hn
        obtain ⟨read, hs, hr⟩ := Except.bind_eq_ok hr
        rw [core_nullable] at hs
        cases read with
        | leaf t =>
            obtain ⟨t', hk, hleaf, hread⟩ := h.leaf _ t hs
            have hr : leafLiteral t (.list items) = some c := Except.ok.inj hr
            have hnull : c ≠ .null := by
              rintro rfl
              cases leafLiteral_eq_null hr
            exact .leaf hk hleaf hp ((hread _).symm.trans hr) hnull hn
        | object expected oneOf => cases hr
  | .object fields, type, c, hp, hr => by
      rw [readLiteral] at hr
      obtain ⟨read, hs, hr⟩ := Except.bind_eq_ok hr
      cases read with
      | leaf t => exact fits_inLists_leaf h hp (by simp) hs (Except.ok.inj hr)
      | object expected oneOf =>
          obtain ⟨found, hf, hr⟩ := Except.bind_eq_ok hr
          obtain ⟨read, hread, hr⟩ := Except.bind_eq_ok hr
          cases read with
          | none => cases hr
          | some read =>
              dsimp only at hr
              split at hr
              · cases hr
              · rename_i hsingle
                cases hr
                exact fits_read h hs hf
                  (fun f _ c => fits_readField h fields f.name f.type c hp) hread
                  fun ho => by simpa [ho] using hsingle
  | .variable _, type, c, hp, hr | .int _, type, c, hp, hr | .float _, type, c, hp, hr
  | .string _ _, type, c, hp, hr | .boolean _, type, c, hp, hr | .enum _, type, c, hp, hr => by
      unfold readLiteral at hr
      obtain ⟨read, hs, hr⟩ := Except.bind_eq_ok hr
      cases read with
      | leaf t => exact fits_inLists_leaf h hp (by simp) hs (Except.ok.inj hr)
      | object expected oneOf => cases hr

theorem fits_readItems (h : ReadsTypes shape type? readable) : ∀ (items : List Value)
    (type : TypeRef) (cs : List Constant), Value.ProperItems true items →
    readItems shape items type = .ok (some cs) → ∀ c ∈ cs, Fits type? readable c type
  | [], type, cs, _, hr => by
      cases hr
      simp
  | item :: rest, type, cs, hp, hr => by
      rw [readItems] at hr
      obtain ⟨value, hv, hr⟩ := Except.bind_eq_ok hr
      cases value with
      | none => cases hr
      | some value =>
          obtain ⟨others, ho, hr⟩ := Except.bind_eq_ok hr
          obtain ⟨others, rfl, rfl⟩ := Option.map_eq_some_iff.mp (Except.ok.inj hr)
          exact List.forall_mem_cons.mpr ⟨fits_readLiteral h item type value hp.1 hv,
            fits_readItems h rest type others hp.2 ho⟩

theorem fits_readField (h : ReadsTypes shape type? readable) : ∀ (fields : List (String × Value))
    (name : String) (type : TypeRef) (c : Constant), Value.ProperFields true fields →
    readField shape fields name type = .ok (some (some c)) → Fits type? readable c type
  | [], name, type, c, _, hr => by cases hr
  | (key, literal) :: rest, name, type, c, hp, hr => by
      rw [readField] at hr
      obtain ⟨value, hv, hr⟩ := Except.bind_eq_ok hr
      cases value with
      | some value =>
          cases hr
          exact fits_readField h rest name type c hp.2 hv
      | none =>
          dsimp only at hr
          split at hr
          · obtain ⟨value, hl, hr⟩ := Except.bind_eq_ok hr
            cases hr
            exact fits_readLiteral h literal type c hp.1.2 hl
          · cases hr

end

end Reading

end SdlAssembly.Schemas
