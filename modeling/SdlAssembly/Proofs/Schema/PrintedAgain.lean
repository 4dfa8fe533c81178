import SdlAssembly.Proofs.Schema.Rebuilding

/-!
# Types that are printed again

A type that was told is printed as the type that it was told of, unless a part of one of its defaults
is lost. What is not printed of an input, such as a description among arguments on one line, is gone
without a trace.
-/

namespace SdlAssembly.Schemas

open Grammar Except

/-- No part of the default of an input is lost. -/
def Schema.KeepsDefault (schema : Schema) (input : InputField) : Prop :=
  ∀ c ∈ input.default, Keeps schema.type? c input.type

/-! ## Types that are told -/

section Retold

variable {type? : String → Option NamedType}
  {shape : String → Except BuildFault (InputShape BuildFault)}

theorem name_type_retold (described : Bool) (fields : List InputField) :
    ((fields.map (InputField.retold type? shape described)).map fun f => (f.name, f.type)) =
      fields.map fun f => (f.name, f.type) := by
  rw [List.map_map]
  rfl

theorem core_retold (described : Bool) (fields : List InputField) :
    ((fields.map (InputField.retold type? shape described)).map fun f => f.type.core) =
      fields.map fun f => f.type.core := by
  rw [List.map_map]
  rfl

theorem leadsTo_retold (t : NamedType) : (t.retold type? shape).leadsTo = t.leadsTo := by
  have hfields : ∀ fields : List Field, ((fields.map (Field.retold type? shape)).flatMap fun field =>
      field.type.core :: field.arguments.map fun argument => argument.type.core) =
      fields.flatMap fun field =>
        field.type.core :: field.arguments.map fun argument => argument.type.core := by
    intro fields
    rw [List.flatMap_map]
    refine List.flatMap_congr fun field _ => ?_
    exact congrArg (field.type.core :: ·) (core_retold _ field.arguments)
  unfold NamedType.leadsTo NamedType.retold TypeShape.retold
  cases t.shape with
  | object interfaces fields | interface interfaces fields =>
      exact congrArg (interfaces ++ ·) (hfields fields)
  | inputObject fields oneOf => exact core_retold true fields
  | _ => rfl

theorem writesAlike_retold (t : NamedType) : t.WritesAlike (t.retold type? shape) := by
  unfold NamedType.retold TypeShape.retold
  constructor
  · rfl
  · unfold NamedType.isEnum
    cases t.shape <;> rfl
  · unfold NamedType.isInputObject
    cases t.shape <;> rfl
  · unfold NamedType.inputFields
    cases t.shape with
    | inputObject fields oneOf => exact (name_type_retold true fields).symm
    | _ => rfl

theorem undescribed_retold (arguments : List InputField) :
    undescribed (retoldArguments type? shape arguments) = undescribed arguments := by
  have hd : undescribed (retoldArguments type? shape arguments) =
      arguments.all fun a =>
        ((if !undescribed arguments then a.description else none).getD "").isEmpty := List.all_map
  rw [hd]
  cases hu : undescribed arguments with
  | true => exact List.all_eq_true.mpr fun _ _ => rfl
  | false => exact hu

end Retold

/-! ## What names stand for -/

/-- Names stand for types of a schema as they are told, and for the standard types. -/
structure TellsOf (schema : Schema) (shape : String → Except BuildFault (InputShape BuildFault))
    (meaning : String → Option NamedType) : Prop where
  standard : KeepsStandard meaning
  plain : ∀ name, isStandardType name = false →
    meaning name = (schema.type? name).map (NamedType.retold schema.type? shape)

/-- A name for which each of two schemas lists what it stands for there. -/
def ListedIn (schema schema' : Schema) (meaning meaning' : String → Option NamedType)
    (name : String) : Prop :=
  schema.type? name = meaning name ∧ schema'.type? name = meaning' name

section Printing

variable {schema schema' : Schema} {meaning meaning' : String → Option NamedType}
  {shape : String → Except BuildFault (InputShape BuildFault)}

section Alike

variable (hl : schema.Lists meaning) (hk : KeepsStandard meaning)
  (hm : TellsOf schema shape meaning')
include hl hk hm

theorem TellsOf.related (name : String) : Option.Rel (fun t t' => t.WritesAlike t'
    ∧ t'.leadsTo = t.leadsTo) (meaning name) (meaning' name) := by
  cases hs : isStandardType name with
  | true =>
      rw [hk name hs, hm.standard name hs]
      cases standardType? name with
      | none => exact .none
      | some t => exact .some ⟨⟨rfl, rfl, rfl, rfl⟩, rfl⟩
  | false =>
      rw [hm.plain name hs, hl.type?_eq hs]
      cases meaning name with
      | none => exact .none
      | some t => exact .some ⟨writesAlike_retold t, leadsTo_retold t⟩

/-- Constants are written alike under the names that both schemas list. -/
theorem TellsOf.writesAlikeOn (hl' : schema'.Lists meaning') :
    WritesAlikeOn (ListedIn schema schema' meaning meaning') schema.type? schema'.type? := by
  constructor
  · rintro name ⟨hn, hn'⟩
    have hr := hm.related hl hk name
    rw [← hn, ← hn'] at hr
    generalize schema.type? name = found at hr ⊢
    generalize schema'.type? name = found' at hr ⊢
    cases hr with
    | none => exact .none
    | some h => exact .some h.1
  · rintro name ⟨hn, hn'⟩ t ht f hf
    have hr := hm.related hl hk name
    rw [← hn, ← hn', ht] at hr
    have hin := leadsTo_input hf
    refine ⟨hl.closed t (List.mem_of_find?_eq_some ht) _ hin, ?_⟩
    cases ht' : schema'.type? name with
    | none =>
        rw [ht'] at hr
        cases hr
    | some t' =>
        rw [ht'] at hr
        cases hr with
        | some h => exact hl'.closed t' (List.mem_of_find?_eq_some ht') _ (h.2 ▸ hin)

end Alike

/-! ## Prints -/

variable {names : String → Prop} (h : WritesAlikeOn names schema.type? schema'.type?)
include h

/-- The default of an input that was told can be written, and in the same way if no part of it is
lost. -/
theorem writeDefault_retold {field : InputField} (hr : field.ReadBack schema.type? shape)
    (hn : names field.type.core) (described : Bool) : ∃ literal literal',
      writeDefault schema field = .ok literal
        ∧ writeDefault schema' (field.retold schema.type? shape described) = .ok literal'
        ∧ (schema.KeepsDefault field → printWritten literal' = printWritten literal) := by
  unfold writeDefault InputField.retold
  cases hd : field.default with
  | none => exact ⟨none, none, rfl, rfl, fun _ => rfl⟩
  | some c =>
      have hc := hr c hd
      refine ⟨_, _, hc.writes, (writeConstant_alike h _ _ hn).symm.trans hc.rewrites, fun hkeep => ?_⟩
      rw [printWritten, printWritten, hc.print (hkeep c hd)]

theorem printInput_retold {field : InputField} (hr : field.ReadBack schema.type? shape)
    (hn : names field.type.core) (hkeep : schema.KeepsDefault field) (described : Bool) :
    printInput schema' (field.retold schema.type? shape described) = printInput schema field := by
  obtain ⟨literal, literal', hw, hw', hp⟩ := writeDefault_retold h hr hn described
  rw [printInput, printInput, hw, hw']
  exact congrArg (fun written => Except.ok (field.name ++ ": " ++ field.type.print ++ written
    ++ printDeprecation field.deprecation)) (hp hkeep)

omit h in
theorem printEach_map {α β : Type} {print : Bool → α → Printed} {print' : Bool → β → Printed}
    {change : α → β} {items : List α}
    (h : ∀ item ∈ items, ∀ first, print' first (change item) = print first item) :
    printEach print' (items.map change) = printEach print items := by
  cases items with
  | nil => rfl
  | cons item items =>
      obtain ⟨hi, h⟩ := List.forall_mem_cons.mp h
      have hrest : items.mapM (print' false ∘ change) = items.mapM (print false) :=
        Except.mapM_congr fun item hm => h item hm false
      rw [List.map_cons, printEach, printEach, hi, List.mapM_map, hrest]

theorem printArguments_retold {arguments : List InputField}
    (hr : ∀ a ∈ arguments, a.ReadBack schema.type? shape)
    (hn : ∀ a ∈ arguments, names a.type.core) (hkeep : ∀ a ∈ arguments, schema.KeepsDefault a)
    (indentation : String) :
    printArguments schema' (retoldArguments schema.type? shape arguments) indentation =
      printArguments schema arguments indentation := by
  have hprint : ∀ a ∈ arguments, printInput schema' (a.retold schema.type? shape
      !undescribed arguments) = printInput schema a :=
    fun a ha => printInput_retold h (hr a ha) (hn a ha) (hkeep a ha) _
  have hempty : (retoldArguments schema.type? shape arguments).isEmpty = arguments.isEmpty :=
    List.isEmpty_map
  have hline : (retoldArguments schema.type? shape arguments).mapM (printInput schema') =
      arguments.mapM (printInput schema) := by
    rw [retoldArguments, List.mapM_map]
    exact Except.mapM_congr hprint
  have hundescribed : undescribed (retoldArguments schema.type? shape arguments) =
      undescribed arguments := undescribed_retold arguments
  unfold undescribed at hundescribed
  unfold printArguments
  rw [hempty, hundescribed, hline]
  split
  · rfl
  · split
    · rfl
    · rename_i hu
      have hdescribed : undescribed arguments = false := by simpa [undescribed] using hu
      dsimp only
      rw [retoldArguments, printEach_map fun a ha first => ?_]
      rw [hprint a ha, InputField.retold, hdescribed]
      rfl

theorem printFields_retold {fields : List Field}
    (hr : ∀ field ∈ fields, ∀ a ∈ field.arguments, a.ReadBack schema.type? shape)
    (hn : ∀ field ∈ fields, ∀ a ∈ field.arguments, names a.type.core)
    (hkeep : ∀ field ∈ fields, ∀ a ∈ field.arguments, schema.KeepsDefault a) :
    printFields schema' (fields.map (Field.retold schema.type? shape)) =
      printFields schema fields := by
  unfold printFields
  rw [printEach_map fun field hf first => ?_]
  rw [Field.retold, printArguments_retold h (hr field hf) (hn field hf) (hkeep field hf)]

theorem printInputFields_retold {fields : List InputField}
    (hr : ∀ field ∈ fields, field.ReadBack schema.type? shape)
    (hn : ∀ field ∈ fields, names field.type.core)
    (hkeep : ∀ field ∈ fields, schema.KeepsDefault field) :
    printInputFields schema' (fields.map (InputField.retold schema.type? shape true)) =
      printInputFields schema fields := by
  unfold printInputFields
  rw [printEach_map fun field hf first => ?_]
  rw [printInput_retold h (hr field hf) (hn field hf) (hkeep field hf)]
  rfl

/-- A type without the address of a specification is printed as it was. -/
theorem printType_retold {t : NamedType} (hr : ∀ input ∈ t.inputs, input.ReadBack schema.type? shape)
    (hn : ∀ name ∈ t.leadsTo, names name) (hkeep : ∀ input ∈ t.inputs, schema.KeepsDefault input)
    (hurl : ∀ url, t.shape = .scalar url → url = none) :
    printType schema' (t.retold schema.type? shape) = printType schema t := by
  have hin : ∀ field ∈ t.fields, ∀ a ∈ field.arguments, a ∈ t.inputs := fun field hf a ha =>
    List.mem_append_left _ (List.mem_flatMap.mpr ⟨field, hf, ha⟩)
  have hin' : ∀ field ∈ t.inputFields, field ∈ t.inputs := fun _ => List.mem_append_right _
  have hfields : printFields schema' (t.fields.map (Field.retold schema.type? shape)) =
      printFields schema t.fields :=
    printFields_retold h (fun field hf a ha => hr a (hin field hf a ha))
      (fun field hf a ha => hn _ (leadsTo_argument hf ha))
      fun field hf a ha => hkeep a (hin field hf a ha)
  have hinputs : printInputFields schema' (t.inputFields.map (InputField.retold schema.type? shape true)) =
      printInputFields schema t.inputFields :=
    printInputFields_retold h (fun field hf => hr field (hin' field hf))
      (fun field hf => hn _ (leadsTo_input hf)) fun field hf => hkeep field (hin' field hf)
  unfold NamedType.fields at hfields
  unfold NamedType.inputFields at hinputs
  unfold printType NamedType.retold TypeShape.retold
  cases hs : t.shape with
  | scalar url =>
      obtain rfl := hurl url hs
      rfl
  | object interfaces fields =>
      rw [hs] at hfields
      dsimp only at hfields ⊢
      rw [hfields]
  | interface interfaces fields =>
      rw [hs] at hfields
      dsimp only at hfields ⊢
      rw [hfields]
  | inputObject fields oneOf =>
      rw [hs] at hinputs
      dsimp only at hinputs ⊢
      rw [hinputs]
  | _ => rfl

theorem printDirectiveType_retold {d : DirectiveType}
    (hr : ∀ a ∈ d.arguments, a.ReadBack schema.type? shape)
    (hn : ∀ a ∈ d.arguments, names a.type.core) (hkeep : ∀ a ∈ d.arguments, schema.KeepsDefault a) :
    printDirectiveType schema' (d.retold schema.type? shape) = printDirectiveType schema d := by
  unfold printDirectiveType DirectiveType.retold
  dsimp only
  rw [printArguments_retold h hr hn hkeep]

/-- The default of an input that was told can be written. -/
theorem canWrite_retold {field : InputField} (hr : field.ReadBack schema.type? shape)
    (hn : names field.type.core) (described : Bool) :
    schema'.CanWrite (field.retold schema.type? shape described) := by
  obtain ⟨-, literal', -, hw', -⟩ := writeDefault_retold h hr hn described
  intro c hc
  refine (writeConstant_isOk _ _).mp ⟨literal', ?_⟩
  rw [writeDefault, hc] at hw'
  exact hw'

end Printing

end SdlAssembly.Schemas
