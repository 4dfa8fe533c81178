import SdlAssembly.Proofs.Schema.Reprinting

/-!
# Defaults that cannot be written

A default is written part by part: the items of a list under their type, the fields of an input
object under theirs, and all else as the literal of a scalar or an enum. A schema is printed unless
one of the parts of a default has no literal, which is a collection or a number that is not finite.
-/

namespace SdlAssembly.Schemas

open Grammar Except

/-! ## Parts of constants -/

/-- Whether there is a literal for a constant of a scalar or an enum. -/
def Constant.hasLiteral : Constant → Bool
  | .list _ | .object _ => false
  | .float value => value.isFinite
  | .null | .boolean _ | .int _ | .string _ => true

/-- A part of a constant that is written as the literal of a scalar or an enum. -/
inductive LeafOf (type? : String → Option NamedType) (part : Constant) : Constant → TypeRef → Prop
  | here {leaf : NamedType} {type : TypeRef} (known : type? type.core = some leaf)
      (notInput : leaf.isInputObject = false)
      (whole : ∀ items item, part = .list items → type.nullable ≠ .list item) :
      LeafOf type? part part type
  | item {items : List Constant} {value : Constant} {type item : TypeRef}
      (list : type.nullable = .list item) (mem : value ∈ items)
      (inside : LeafOf type? part value item) : LeafOf type? part (.list items) type
  | field {given : List (String × Constant)} {t : NamedType} {fields : List InputField}
      {oneOf : Bool} {field : InputField} {value : Constant} {type : TypeRef}
      (known : type? type.core = some t) (shape : t.shape = .inputObject fields oneOf)
      (mem : field ∈ fields) (entry : given.lookup field.name = some value)
      (inside : LeafOf type? part value field.type) : LeafOf type? part (.object given) type

/-- All parts of a constant have literals. -/
def Writable (type? : String → Option NamedType) (value : Constant) (type : TypeRef) : Prop :=
  ∀ part, LeafOf type? part value type → part.hasLiteral

/-! ## Writing -/

section Writing

variable {type? : String → Option NamedType}

theorem writeLeaf_isOk {t : NamedType} {value : Constant} :
    (∃ literal, writeLeaf t value = .ok literal) ↔ value.hasLiteral := by
  cases value with
  | float value =>
      simp only [writeLeaf, Constant.hasLiteral]
      cases hf : value.isFinite with
      | true => simp
      | false => by_cases hn : t.name = "Float" <;> simp [hn]
  | _ => simp [writeLeaf, Constant.hasLiteral]

/-- Under an unknown type or an input object there is nothing to write. -/
theorem writeAsLeaf_isOk {name : String} {value : Constant} :
    (∃ written, (match type? name with
      | none => Except.ok none
      | some t => if t.isInputObject then .ok none else (writeLeaf t value).map some) =
        .ok written) ↔
      ∀ leaf, type? name = some leaf → leaf.isInputObject = false → value.hasLiteral := by
  cases type? name with
  | none => simp
  | some t =>
      cases hi : t.isInputObject with
      | true => simp [hi]
      | false =>
          rw [← writeLeaf_isOk (t := t)]
          cases hw : writeLeaf t value <;> simp [hi, hw, Except.map]

theorem writtenFields_isOk {write? : InputField → Except Unwritable (Option Value)}
    {fields : List InputField} : (∃ written, writtenFields write? fields = .ok written) ↔
      ∀ field ∈ fields, ∃ written, write? field = .ok written := by
  induction fields with
  | nil => simp [writtenFields]
  | cons field fields ih =>
      rw [List.forall_mem_cons, ← ih]
      refine bind_isOk fun value => ?_
      cases value with
      | none => rfl
      | some value => exact bind_pure_isOk

/-! ## Parts by the form of the constant -/

variable {part : Constant} {type item : TypeRef}

theorem leafOf_items {items : List Constant} (hl : type.nullable = .list item) :
    LeafOf type? part (.list items) type ↔ ∃ value ∈ items, LeafOf type? part value item := by
  constructor
  · intro h
    cases h with
    | here known notInput whole => exact (whole items item rfl hl).elim
    | item list mem inside =>
        cases hl.symm.trans list
        exact ⟨_, mem, inside⟩
  · rintro ⟨value, hm, h⟩
    exact .item hl hm h

theorem leafOf_fields {given : List (String × Constant)} {t : NamedType} {fields : List InputField}
    {oneOf : Bool} (ht : type? type.core = some t) (hs : t.shape = .inputObject fields oneOf) :
    LeafOf type? part (.object given) type ↔ ∃ field ∈ fields, ∃ value,
      given.lookup field.name = some value ∧ LeafOf type? part value field.type := by
  constructor
  · intro h
    cases h with
    | here known notInput whole =>
        cases ht.symm.trans known
        simp [NamedType.isInputObject, hs] at notInput
    | field known shape mem entry inside =>
        cases ht.symm.trans known
        cases hs.symm.trans shape
        exact ⟨_, mem, _, entry, inside⟩
  · rintro ⟨field, hm, value, he, h⟩
    exact .field ht hs hm he h

/-- A constant that does not come apart is its only part. -/
theorem leafOf_whole {value : Constant}
    (hl : ∀ items item, value = .list items → type.nullable ≠ .list item)
    (ho : ∀ given t, value = .object given → type? type.core = some t → t.isInputObject = false) :
    LeafOf type? part value type ↔
      part = value ∧ ∃ leaf, type? type.core = some leaf ∧ leaf.isInputObject = false := by
  constructor
  · intro h
    cases h with
    | here known notInput whole => exact ⟨rfl, _, known, notInput⟩
    | item list mem inside => exact (hl _ _ rfl list).elim
    | field known shape mem entry inside =>
        have hi := ho _ _ rfl known
        simp [NamedType.isInputObject, shape] at hi
  · rintro ⟨rfl, leaf, hk, hn⟩
    exact .here hk hn hl

theorem writable_whole {value : Constant}
    (hl : ∀ items item, value = .list items → type.nullable ≠ .list item)
    (ho : ∀ given t, value = .object given → type? type.core = some t → t.isInputObject = false) :
    Writable type? value type ↔
      ∀ leaf, type? type.core = some leaf → leaf.isInputObject = false → value.hasLiteral := by
  simp only [Writable, leafOf_whole hl ho]
  constructor
  · exact fun h leaf hk hn => h value ⟨rfl, leaf, hk, hn⟩
  · rintro h part ⟨rfl, leaf, hk, hn⟩
    exact h leaf hk hn

theorem writable_items {items : List Constant} (hl : type.nullable = .list item) :
    Writable type? (.list items) type ↔ ∀ value ∈ items, Writable type? value item := by
  simp only [Writable, leafOf_items hl]
  constructor
  · exact fun h value hm part hp => h part ⟨value, hm, hp⟩
  · rintro h part ⟨value, hm, hp⟩
    exact h value hm part hp

theorem writable_fields {given : List (String × Constant)} {t : NamedType}
    {fields : List InputField} {oneOf : Bool} (ht : type? type.core = some t)
    (hs : t.shape = .inputObject fields oneOf) :
    Writable type? (.object given) type ↔ ∀ field ∈ fields, ∀ value,
      given.lookup field.name = some value → Writable type? value field.type := by
  simp only [Writable, leafOf_fields ht hs]
  constructor
  · exact fun h field hm value he part hp => h part ⟨field, hm, value, he, hp⟩
  · rintro h part ⟨field, hm, value, he, hp⟩
    exact h field hm value he part hp

/-! ## Constants -/

mutual

/-- A constant is written where all of its parts have literals. -/
theorem writeConstant_isOk : ∀ (value : Constant) (type : TypeRef),
    (∃ written, writeConstant type? value type = .ok written) ↔ Writable type? value type
  | .null, type => by
      rw [writable_whole (by simp) (by simp)]
      exact ⟨fun _ _ _ _ => rfl, fun _ => ⟨_, rfl⟩⟩
  | .list items, type => by
      rw [writeConstant]
      split
      · rename_i item hl
        rw [map_isOk, writeItems_isOk items item, writable_items hl]
      · rename_i hl
        rw [writable_whole (fun _ item _ => hl item) (by simp), core_nullable]
        exact writeAsLeaf_isOk
  | .object given, type => by
      rw [writeConstant]
      by_cases hi : ∃ t fields oneOf, type? type.core = some t ∧ t.shape = .inputObject fields oneOf
      · obtain ⟨t, fields, oneOf, ht, hs⟩ := hi
        rw [writable_fields ht hs, ht]
        simp only [hs]
        simp only [← writeField_isOk given]
        exact bind_pure_isOk.trans writtenFields_isOk
      · have hn : ∀ t, type? type.core = some t → t.isInputObject = false := by
          intro t ht
          unfold NamedType.isInputObject
          split
          · exact (hi ⟨t, _, _, ht, by assumption⟩).elim
          · rfl
        rw [writable_whole (by simp) fun _ t _ => hn t, ← writeAsLeaf_isOk]
        cases ht : type? type.core with
        | none => rfl
        | some t =>
            simp only [hn t ht, Bool.false_eq_true, ↓reduceIte]
            cases hs : t.shape with
            | inputObject fields oneOf => exact (hi ⟨t, fields, oneOf, ht, hs⟩).elim
            | _ => rfl
  | .boolean _, type | .int _, type | .float _, type | .string _, type => by
      unfold writeConstant
      rw [writable_whole (by simp) (by simp)]
      exact writeAsLeaf_isOk

theorem writeItems_isOk : ∀ (items : List Constant) (type : TypeRef),
    (∃ written, writeItems type? items type = .ok written) ↔
      ∀ item ∈ items, Writable type? item type
  | [], _ => by simp [writeItems]
  | item :: rest, type => by
      rw [List.forall_mem_cons, ← writeConstant_isOk item type, ← writeItems_isOk rest type]
      refine bind_isOk fun value => ?_
      cases value with
      | none => rfl
      | some value => exact bind_pure_isOk

theorem writeField_isOk : ∀ (given : List (String × Constant)) (name : String) (type : TypeRef),
    (∃ written, writeField type? given name type = .ok written) ↔
      ∀ value, given.lookup name = some value → Writable type? value type
  | [], _, _ => by simp [writeField]
  | (key, value) :: rest, name, type => by
      rw [writeField, List.lookup_cons]
      by_cases hk : key = name
      · simp [hk, writeConstant_isOk value type]
      · have hn : (name == key) = false := beq_eq_false_iff_ne.mpr fun he => hk he.symm
        simp [hk, hn, writeField_isOk rest name type]

end

end Writing

/-! ## Printing -/

/-- The default of an input can be written, if it has one. -/
def Schema.CanWrite (schema : Schema) (input : InputField) : Prop :=
  ∀ default, input.default = some default → Writable schema.type? default input.type

/-- The inputs that are printed with a type. -/
def NamedType.inputs (t : NamedType) : List InputField :=
  t.fields.flatMap (·.arguments) ++ t.inputFields

/-- The inputs that are printed with a schema. -/
def Schema.inputs (schema : Schema) : List InputField :=
  (schema.directives.filter fun d => !isStandardDirective d.name).flatMap (·.arguments)
    ++ (schema.types.filter fun t => !isStandardType t.name).flatMap (·.inputs)

section Printing

variable {schema : Schema}

theorem printInput_isOk {input : InputField} :
    (∃ text, printInput schema input = .ok text) ↔ schema.CanWrite input := by
  refine bind_pure_isOk.trans ?_
  unfold writeDefault Schema.CanWrite
  cases input.default with
  | none => simp
  | some default => simp [writeConstant_isOk]

theorem printEach_isOk {α : Type} {print : Bool → α → Printed} {p : α → Prop}
    (h : ∀ first item, (∃ text, print first item = .ok text) ↔ p item) {items : List α} :
    (∃ lines, printEach print items = .ok lines) ↔ ∀ item ∈ items, p item := by
  cases items with
  | nil => simp [printEach]
  | cons item items =>
      rw [List.forall_mem_cons, ← h true item]
      refine bind_isOk fun text => bind_pure_isOk.trans ?_
      simp only [mapM_isOk, h]

theorem printArguments_isOk {arguments : List InputField} {indentation : String} :
    (∃ text, printArguments schema arguments indentation = .ok text) ↔
      ∀ a ∈ arguments, schema.CanWrite a := by
  unfold printArguments
  split
  · rename_i he
    rw [List.isEmpty_iff.mp he]
    exact ⟨fun _ => by simp, fun _ => ⟨_, rfl⟩⟩
  · split
    · refine bind_pure_isOk.trans ?_
      simp only [mapM_isOk, printInput_isOk]
    · refine bind_pure_isOk.trans (printEach_isOk fun first a => ?_)
      exact bind_pure_isOk.trans printInput_isOk

theorem printFields_isOk {fields : List Field} :
    (∃ text, printFields schema fields = .ok text) ↔
      ∀ field ∈ fields, ∀ a ∈ field.arguments, schema.CanWrite a := by
  refine bind_pure_isOk.trans (printEach_isOk fun first field => ?_)
  exact bind_pure_isOk.trans printArguments_isOk

theorem printInputFields_isOk {fields : List InputField} :
    (∃ text, printInputFields schema fields = .ok text) ↔
      ∀ field ∈ fields, schema.CanWrite field := by
  refine bind_pure_isOk.trans (printEach_isOk fun first field => ?_)
  exact bind_pure_isOk.trans printInput_isOk

theorem printEnumValues_isOk {values : List EnumValue} :
    ∃ text, printEnumValues values = .ok text := by
  have hall : ∀ value ∈ values, True := fun _ _ => trivial
  exact bind_pure_isOk.mpr ((printEach_isOk fun first value => by simp).mpr hall)

theorem printType_isOk {t : NamedType} :
    (∃ text, printType schema t = .ok text) ↔ ∀ input ∈ t.inputs, schema.CanWrite input := by
  unfold printType NamedType.inputs NamedType.fields NamedType.inputFields
  cases t.shape with
  | scalar url => simp [pure, Except.pure]
  | object interfaces fields =>
      refine bind_pure_isOk.trans (printFields_isOk.trans ?_)
      rw [List.append_nil, List.forall_mem_flatMap]
  | interface interfaces fields =>
      refine bind_pure_isOk.trans (printFields_isOk.trans ?_)
      rw [List.append_nil, List.forall_mem_flatMap]
  | union members => simp [pure, Except.pure]
  | enum values =>
      refine bind_pure_isOk.trans ?_
      simp [printEnumValues_isOk]
  | inputObject fields oneOf =>
      refine bind_pure_isOk.trans (printInputFields_isOk.trans ?_)
      simp

theorem printDirectiveType_isOk {d : DirectiveType} :
    (∃ text, printDirectiveType schema d = .ok text) ↔ ∀ a ∈ d.arguments, schema.CanWrite a :=
  bind_pure_isOk.trans printArguments_isOk

/-- A schema is printed where the defaults of its inputs can be written. -/
theorem printSchema_isOk_iff : (∃ text, printSchema schema = .ok text) ↔
    ∀ input ∈ schema.inputs, schema.CanWrite input := by
  unfold printSchema Schema.inputs
  simp only [List.forall_mem_append, List.forall_mem_flatMap, ← printDirectiveType_isOk,
    ← printType_isOk, ← mapM_isOk]
  exact bind_isOk fun directives => bind_pure_isOk

end Printing

end SdlAssembly.Schemas
