import SdlAssembly.Proofs.Schema.Listing
import SdlAssembly.Schema.Printer

/-!
# Types that are printed alike

The print of a type depends on the schema around it only through the types of its inputs, and of
these nothing that a scalar says of itself matters.
-/

namespace SdlAssembly.Schemas

open Grammar

/-! ## Scalars without their specification -/

/-- A type without the address of the specification of a scalar. -/
def NamedType.unspecified (t : NamedType) : NamedType :=
  match t.shape with
  | .scalar _ => { t with shape := .scalar none }
  | _ => t

section Unspecified

variable {t t' : NamedType}

@[simp] theorem unspecified_name : t.unspecified.name = t.name := by
  unfold NamedType.unspecified
  split <;> rfl

theorem unspecified_eq_self (h : ∀ url, t.shape ≠ .scalar url) : t.unspecified = t := by
  unfold NamedType.unspecified
  split
  · rename_i url hs
    exact (h url hs).elim
  · rfl

theorem unspecified_standard (h : t ∈ standardTypes) : t.unspecified = t := by
  have hall : ∀ t ∈ standardTypes, (match t.shape with
      | .scalar url => url.isNone
      | _ => true) = true := by decide
  have ht := hall t h
  unfold NamedType.unspecified
  split
  · rename_i url hs
    rw [hs] at ht
    obtain rfl : url = none := Option.isNone_iff_eq_none.mp ht
    rw [← hs]
  · rfl

@[simp] theorem leadsTo_unspecified (t : NamedType) : t.unspecified.leadsTo = t.leadsTo := by
  unfold NamedType.unspecified
  split
  · rename_i hs
    simp [NamedType.leadsTo, hs]
  · rfl

@[simp] theorem isObject_unspecified (t : NamedType) : t.unspecified.isObject = t.isObject := by
  unfold NamedType.unspecified
  split
  · rename_i hs
    simp [NamedType.isObject, hs]
  · rfl

@[simp] theorem unspecified_unspecified (t : NamedType) :
    t.unspecified.unspecified = t.unspecified := by
  by_cases h : ∃ url, t.shape = .scalar url
  · obtain ⟨url, hs⟩ := h
    simp [NamedType.unspecified, hs]
  · have he : t.unspecified = t := unspecified_eq_self fun url hs => h ⟨url, hs⟩
    rw [he, he]

/-- Types that differ at most in the specification of a scalar. -/
def NamedType.Alike (t t' : NamedType) : Prop := t.unspecified = t'.unspecified

theorem NamedType.Alike.cases (h : t.Alike t') :
    t = t' ∨ ∃ url url', t.shape = .scalar url ∧ t'.shape = .scalar url' ∧ t.name = t'.name := by
  have hn : t.name = t'.name := by rw [← unspecified_name, h, unspecified_name]
  unfold NamedType.Alike NamedType.unspecified at h
  split at h
  · split at h
    · exact .inr ⟨_, _, by assumption, by assumption, hn⟩
    · rename_i hs
      exact (hs none (h ▸ rfl)).elim
  · split at h
    · rename_i hs _ _ _
      exact (hs none (h ▸ rfl)).elim
    · exact .inl h

end Unspecified

/-! ## What members lead to -/

theorem leadsTo_argument {t : NamedType} {field : Field} {a : InputField} (hf : field ∈ t.fields)
    (ha : a ∈ field.arguments) : a.type.core ∈ t.leadsTo := by
  have hm : a.type.core ∈ t.fields.flatMap fun field =>
      field.type.core :: field.arguments.map fun argument => argument.type.core :=
    List.mem_flatMap.mpr ⟨field, hf, List.mem_cons_of_mem _ (List.mem_map_of_mem ha)⟩
  unfold NamedType.fields at hm
  unfold NamedType.leadsTo
  cases hs : t.shape with
  | object interfaces fields =>
      rw [hs] at hm
      exact List.mem_append_right _ hm
  | interface interfaces fields =>
      rw [hs] at hm
      exact List.mem_append_right _ hm
  | _ =>
      rw [hs] at hm
      cases hm

theorem leadsTo_input {t : NamedType} {field : InputField} (hf : field ∈ t.inputFields) :
    field.type.core ∈ t.leadsTo := by
  unfold NamedType.inputFields at hf
  unfold NamedType.leadsTo
  cases hs : t.shape with
  | inputObject fields oneOf =>
      rw [hs] at hf
      exact List.mem_map_of_mem hf
  | _ =>
      rw [hs] at hf
      cases hf

/-! ## Defaults -/

/-- Types under which constants are written alike. -/
structure NamedType.WritesAlike (t t' : NamedType) : Prop where
  name : t.name = t'.name
  isEnum : t.isEnum = t'.isEnum
  isInputObject : t.isInputObject = t'.isInputObject
  fields : (t.inputFields.map fun f => (f.name, f.type)) = t'.inputFields.map fun f => (f.name, f.type)

/-- Names under which constants are written alike, with all that their fields refer to. -/
structure WritesAlikeOn (names : String → Prop) (type? type?' : String → Option NamedType) : Prop where
  alike : ∀ name, names name → Option.Rel NamedType.WritesAlike (type? name) (type?' name)
  closed : ∀ name, names name → ∀ t, type? name = some t → ∀ f ∈ t.inputFields, names f.type.core

/-- Names under which two schemas hold types that are alike, with all that these lead to. -/
structure AlikeOn (names : String → Prop) (type? type?' : String → Option NamedType) : Prop where
  alike : ∀ name, names name → Option.Rel NamedType.Alike (type? name) (type?' name)
  closed : ∀ name, names name → ∀ t, type? name = some t → ∀ next ∈ t.leadsTo, names next

section Writing

variable {names : String → Prop} {type? type?' : String → Option NamedType}

theorem NamedType.Alike.writesAlike {t t' : NamedType} (h : t.Alike t') : t.WritesAlike t' := by
  rcases h.cases with rfl | ⟨url, url', hs, hs', hn⟩
  · exact ⟨rfl, rfl, rfl, rfl⟩
  · exact ⟨hn, by simp [NamedType.isEnum, hs, hs'], by simp [NamedType.isInputObject, hs, hs'],
      by simp [NamedType.inputFields, hs, hs']⟩

theorem AlikeOn.writesAlikeOn (h : AlikeOn names type? type?') :
    WritesAlikeOn names type? type?' := by
  refine ⟨fun name hn => ?_, fun name hn t ht f hf => h.closed name hn t ht _ (leadsTo_input hf)⟩
  have hr := h.alike name hn
  match type? name, type?' name, hr with
  | none, none, _ => exact .none
  | some t, some t', .some ha => exact .some ha.writesAlike

theorem NamedType.WritesAlike.writeLeaf {t t' : NamedType} (h : t.WritesAlike t')
    (value : Constant) : writeLeaf t value = writeLeaf t' value := by
  unfold Schemas.writeLeaf
  split <;> simp only [h.name, h.isEnum]

theorem core_nullable (type : TypeRef) : type.nullable.core = type.core := by
  induction type with
  | named name => rfl
  | list item => rfl
  | nonNull inner ih => exact ih

/-- Only the names and types of fields matter to how they are written. -/
theorem writtenFields_congr {write? write?' : String → TypeRef → Except Unwritable (Option Value)}
    {fields fields' : List InputField}
    (hf : (fields.map fun f => (f.name, f.type)) = fields'.map fun f => (f.name, f.type))
    (h : ∀ f ∈ fields, write? f.name f.type = write?' f.name f.type) :
    writtenFields (fun f => write? f.name f.type) fields =
      writtenFields (fun f => write?' f.name f.type) fields' := by
  induction fields generalizing fields' with
  | nil =>
      rw [List.map_nil, List.nil_eq, List.map_eq_nil_iff] at hf
      rw [hf]
      rfl
  | cons f fields ih =>
      obtain ⟨f', rest', rfl, hfirst, hrest⟩ := List.map_eq_cons_iff.mp hf.symm
      obtain ⟨hn, ht⟩ := Prod.mk.inj hfirst
      obtain ⟨hw, h⟩ := List.forall_mem_cons.mp h
      rw [writtenFields, writtenFields, hw, hn, ht, ih hrest.symm h]

/-- What is written of an object depends on the fields of its type. -/
theorem writeConstant_object (given : List (String × Constant)) (type : TypeRef) :
    writeConstant type? (.object given) type =
      match type? type.core with
      | none => .ok none
      | some t =>
        if t.isInputObject then do
          let written ←
            writtenFields (fun f => writeField type? given f.name f.type) t.inputFields
          return some (.object written)
        else (writeLeaf t (.object given)).map some := by
  rw [writeConstant]
  cases type? type.core with
  | none => rfl
  | some t =>
      unfold NamedType.isInputObject NamedType.inputFields
      dsimp only
      cases t.shape <;> rfl

theorem writeAsLeaf_alike (h : WritesAlikeOn names type? type?') {name : String} (hn : names name)
    (value : Constant) :
    (match type? name with
      | none => Except.ok none
      | some t => if t.isInputObject then .ok none else (writeLeaf t value).map some) =
    (match type?' name with
      | none => Except.ok none
      | some t => if t.isInputObject then .ok none else (writeLeaf t value).map some) := by
  have hr := h.alike name hn
  match type? name, type?' name, hr with
  | none, none, _ => rfl
  | some t, some t', .some ha => simp only [ha.isInputObject, ha.writeLeaf]

mutual

theorem writeConstant_alike (h : WritesAlikeOn names type? type?') :
    ∀ (value : Constant) (type : TypeRef), names type.core →
      writeConstant type? value type = writeConstant type?' value type
  | .null, type, _ => rfl
  | .list items, type, hn => by
      rw [writeConstant, writeConstant]
      split
      · rename_i item hi
        have hcore : item.core = type.core := by rw [← core_nullable type, hi, TypeRef.core]
        rw [writeItems_alike h items item (hcore ▸ hn)]
      · exact writeAsLeaf_alike h (core_nullable type ▸ hn) (.list items)
  | .object given, type, hn => by
      rw [writeConstant_object, writeConstant_object]
      have hr := h.alike _ hn
      have hc := h.closed _ hn
      match hu : type? type.core, type?' type.core, hr with
      | none, none, _ => rfl
      | some t, some t', .some ha =>
          dsimp only
          rw [ha.isInputObject, ha.writeLeaf, writtenFields_congr ha.fields fun field hf =>
            writeField_alike h given field.name field.type (hc t hu field hf)]
  | .boolean _, type, hn | .int _, type, hn | .float _, type, hn | .string _, type, hn => by
      unfold writeConstant
      exact writeAsLeaf_alike h hn _

theorem writeItems_alike (h : WritesAlikeOn names type? type?') :
    ∀ (items : List Constant) (type : TypeRef), names type.core →
      writeItems type? items type = writeItems type?' items type
  | [], _, _ => rfl
  | item :: rest, type, hn => by
      rw [writeItems, writeItems, writeConstant_alike h item type hn,
        writeItems_alike h rest type hn]

theorem writeField_alike (h : WritesAlikeOn names type? type?') :
    ∀ (given : List (String × Constant)) (name : String) (type : TypeRef), names type.core →
      writeField type? given name type = writeField type?' given name type
  | [], _, _, _ => rfl
  | (key, value) :: rest, name, type, hn => by
      rw [writeField, writeField, writeConstant_alike h value type hn,
        writeField_alike h rest name type hn]

end

/-! ## Types -/

variable {schema schema' : Schema}

theorem printInput_alike (h : WritesAlikeOn names schema.type? schema'.type?) {field : InputField}
    (hn : names field.type.core) : printInput schema field = printInput schema' field := by
  have hw : writeDefault schema field = writeDefault schema' field := by
    unfold writeDefault
    split
    · rfl
    · exact writeConstant_alike h _ _ hn
  rw [printInput, printInput, hw]

theorem printEach_congr {α : Type} {print print' : Bool → α → Printed} {items : List α}
    (h : ∀ item ∈ items, ∀ first, print first item = print' first item) :
    printEach print items = printEach print' items := by
  cases items with
  | nil => rfl
  | cons item items =>
      obtain ⟨hi, h⟩ := List.forall_mem_cons.mp h
      rw [printEach, printEach, hi, Except.mapM_congr fun item hm => h item hm false]

theorem printArguments_alike (h : WritesAlikeOn names schema.type? schema'.type?)
    {arguments : List InputField} (hn : ∀ a ∈ arguments, names a.type.core)
    (indentation : String) :
    printArguments schema arguments indentation = printArguments schema' arguments indentation := by
  have hline : arguments.mapM (printInput schema) = arguments.mapM (printInput schema') :=
    Except.mapM_congr fun a ha => printInput_alike h (hn a ha)
  unfold printArguments
  rw [hline]
  dsimp only
  rw [printEach_congr fun a ha first => by rw [printInput_alike h (hn a ha)]]

theorem printFields_alike (h : WritesAlikeOn names schema.type? schema'.type?) {fields : List Field}
    (hn : ∀ field ∈ fields, ∀ a ∈ field.arguments, names a.type.core) :
    printFields schema fields = printFields schema' fields := by
  unfold printFields
  rw [printEach_congr fun field hf first => by rw [printArguments_alike h (hn field hf)]]

theorem printInputFields_alike (h : WritesAlikeOn names schema.type? schema'.type?)
    {fields : List InputField} (hn : ∀ field ∈ fields, names field.type.core) :
    printInputFields schema fields = printInputFields schema' fields := by
  unfold printInputFields
  rw [printEach_congr fun field hf first => by rw [printInput_alike h (hn field hf)]]

/-- A type is printed alike with all that it leads to. -/
theorem printType_alike (h : WritesAlikeOn names schema.type? schema'.type?) {t : NamedType}
    (hn : ∀ name ∈ t.leadsTo, names name) : printType schema t = printType schema' t := by
  have hf : printFields schema t.fields = printFields schema' t.fields :=
    printFields_alike h fun field hf a ha => hn _ (leadsTo_argument hf ha)
  have hi : printInputFields schema t.inputFields = printInputFields schema' t.inputFields :=
    printInputFields_alike h fun field hf => hn _ (leadsTo_input hf)
  unfold NamedType.fields at hf
  unfold NamedType.inputFields at hi
  unfold printType
  cases hs : t.shape with
  | object interfaces fields =>
      rw [hs] at hf
      dsimp only at hf ⊢
      rw [hf]
  | interface interfaces fields =>
      rw [hs] at hf
      dsimp only at hf ⊢
      rw [hf]
  | inputObject fields oneOf =>
      rw [hs] at hi
      dsimp only at hi ⊢
      rw [hi]
  | _ => rfl

theorem printDirectiveType_alike (h : WritesAlikeOn names schema.type? schema'.type?) {d : DirectiveType}
    (hn : ∀ a ∈ d.arguments, names a.type.core) :
    printDirectiveType schema d = printDirectiveType schema' d := by
  unfold printDirectiveType
  rw [printArguments_alike h hn]

end Writing

/-! ## Schemas that differ in specifications -/

section Unspecified

variable {meaning : String → Option NamedType} {alone schema : Schema}

/-- A name for which both schemas list what it stands for, one of them without specifications. -/
def ListedInBoth (meaning : String → Option NamedType) (alone schema : Schema) (name : String) :
    Prop :=
  alone.type? name = meaning name ∧ schema.type? name = (meaning name).map NamedType.unspecified

theorem alikeOn_lists (ha : alone.Lists meaning)
    (hs : schema.Lists fun name => (meaning name).map NamedType.unspecified) :
    AlikeOn (ListedInBoth meaning alone schema) alone.type? schema.type? := by
  constructor
  · rintro name ⟨hn, hn'⟩
    rw [hn, hn']
    cases meaning name with
    | none => exact .none
    | some t => exact .some (unspecified_unspecified t).symm
  · rintro name ⟨hn, hn'⟩ t ht next hl
    have hin : t ∈ alone.types := List.mem_of_find?_eq_some ht
    have hin' : t.unspecified ∈ schema.types := by
      rw [← hn, ht] at hn'
      exact List.mem_of_find?_eq_some hn'
    exact ⟨ha.closed t hin _ hl, hs.closed _ hin' _ (by rwa [leadsTo_unspecified])⟩

end Unspecified

end SdlAssembly.Schemas
