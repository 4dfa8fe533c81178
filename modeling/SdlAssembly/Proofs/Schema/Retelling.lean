import SdlAssembly.Proofs.Schema.Denoting
import SdlAssembly.Proofs.Schema.Printing
import SdlAssembly.Proofs.Schema.Rereading

/-!
# Printed types read again

The definition that a type is printed as tells the type: reading it gives the members of the type,
with the defaults that their literals are read as and without what is not printed of them. What is
read is printed in the same way.
-/

namespace SdlAssembly.Schemas

open Grammar Annotation Except

/-! ## Types as they are told -/

section Retold

variable (type? : String → Option NamedType)
  (shape : String → Except BuildFault (InputShape BuildFault))

/-- An input as its print tells it, with its description or without. -/
def InputField.retold (described : Bool) (field : InputField) : InputField :=
  { field with
    description := if described then field.description else none
    default := field.default.map fun c => again type? shape c field.type }

def retoldArguments (arguments : List InputField) : List InputField :=
  arguments.map (InputField.retold type? shape !undescribed arguments)

def Field.retold (field : Field) : Field :=
  { field with arguments := retoldArguments type? shape field.arguments }

def TypeShape.retold : TypeShape → TypeShape
  | .scalar _ => .scalar none
  | .object interfaces fields => .object interfaces (fields.map (Field.retold type? shape))
  | .interface interfaces fields => .interface interfaces (fields.map (Field.retold type? shape))
  | .union members => .union members
  | .enum values => .enum values
  | .inputObject fields oneOf =>
    .inputObject (fields.map (InputField.retold type? shape true)) oneOf

/-- A type as its print tells it. A scalar does not keep the address of its specification. -/
def NamedType.retold (t : NamedType) : NamedType := { t with shape := t.shape.retold type? shape }

def DirectiveType.retold (d : DirectiveType) : DirectiveType :=
  { d with arguments := retoldArguments type? shape d.arguments }

end Retold

/-! ## Parts of definitions -/

section Parts

variable {α β δ ε : Type}

theorem readDeprecation_marks {directives : List Directive} {deprecation : Option String}
    (h : directives.map Directive.unplaced = deprecationMarks deprecation) :
    readDeprecation directives = .ok deprecation := by
  cases deprecation with
  | none =>
      obtain rfl := List.map_eq_nil_iff.mp h
      rfl
  | some reason =>
      unfold deprecationMarks at h
      dsimp only at h
      split at h
      · rename_i hr
        obtain ⟨⟨name, arguments, position⟩, rfl, hd⟩ := List.map_eq_singleton_iff.mp h
        obtain rfl : name = deprecatedDirective := congrArg Directive.name hd
        obtain rfl := List.map_eq_nil_iff.mp (congrArg Directive.arguments hd)
        rw [eq_of_beq hr]
        rfl
      · obtain ⟨⟨name, arguments, position⟩, rfl, hd⟩ := List.map_eq_singleton_iff.mp h
        obtain rfl : name = deprecatedDirective := congrArg Directive.name hd
        obtain ⟨⟨argument, value, place⟩, rfl, ha⟩ :=
          List.map_eq_singleton_iff.mp (congrArg Directive.arguments hd)
        obtain rfl : argument = "reason" := congrArg Argument.name ha
        obtain rfl : value = .string reason false := congrArg Argument.value ha
        rfl

theorem text_describedAs (description : Option String) :
    (describedAs description).map (·.text) = description := by
  cases description <;> rfl

theorem put_of_not_mem {name : String} {value : α} {pairs : List (String × α)}
    (h : name ∉ pairs.map Prod.fst) : put name value pairs = pairs ++ [(name, value)] := by
  induction pairs with
  | nil => rfl
  | cons pair pairs ih =>
      obtain ⟨key, old⟩ := pair
      rw [List.map_cons, List.mem_cons, not_or] at h
      rw [put, if_neg (by simpa using Ne.symm h.1), ih h.2]
      rfl

theorem lastOfEach_of_nodup {key : α → String} {items : List α} (h : (items.map key).Nodup) :
    lastOfEach key items = items := by
  have hall : ∀ (items : List α) (pairs : List (String × α)),
      (pairs.map Prod.fst ++ items.map key).Nodup →
        putAll key id items pairs = pairs ++ items.map fun item => (key item, item) := by
    intro items
    induction items with
    | nil => simp [putAll]
    | cons item items ih =>
        intro pairs hd
        have hnew : key item ∉ pairs.map Prod.fst := fun hm =>
          (List.nodup_append.mp hd).2.2 _ hm _ List.mem_cons_self rfl
        rw [putAll, List.foldl_cons, ← putAll, id_eq, put_of_not_mem hnew, ih _ (by simpa using hd)]
        simp
  rw [lastOfEach_eq, hall items [] h]
  simp [Function.comp_def]

/-- Definitions that tell items are read as the items that they tell. -/
theorem mapM_told {read : δ → Except ε β} {unplace : δ → δ} {define : α → δ} {retell : α → β}
    {ds : List δ} {items : List α} (hd : ds.map unplace = items.map define)
    (h : ∀ item ∈ items, ∀ d, unplace d = define item → read d = .ok (retell item)) :
    ds.mapM read = .ok (items.map retell) := by
  induction items generalizing ds with
  | nil =>
      obtain rfl := List.map_eq_nil_iff.mp hd
      rfl
  | cons item items ih =>
      obtain ⟨hitem, h⟩ := List.forall_mem_cons.mp h
      obtain ⟨d, rest, rfl, hfirst, hrest⟩ := List.map_eq_cons_iff.mp hd
      rw [List.mapM_cons, hitem d hfirst, ih hrest h]
      rfl

theorem lastOfEach_told {key : β → String} {read : δ → Except ε β} {unplace : δ → δ}
    {define : α → δ} {retell : α → β} {ds : List δ} {items : List α}
    (hd : ds.map unplace = items.map define)
    (h : ∀ item ∈ items, ∀ d, unplace d = define item → read d = .ok (retell item))
    (hk : (items.map fun item => key (retell item)).Nodup) :
    (do return lastOfEach key (← ds.mapM read)) = Except.ok (ε := ε) (items.map retell) := by
  have hnodup : ((items.map retell).map key).Nodup := by rwa [List.map_map]
  exact (bind_of_ok (mapM_told hd h)).trans (congrArg Except.ok (lastOfEach_of_nodup hnodup))

end Parts

/-! ## Sources that tell a schema -/

/-- A type is told by a definition that says what a schema prints of it. -/
structure ToldBy (schema : Schema) (t : NamedType) (node : TypeNode) : Prop where
  description : node.description = describedAs t.description
  name : node.name = t.name
  body : node.body.unplaced = schema.body t.shape
  oneOf : ∀ fields oneOf, t.shape = .inputObject fields oneOf → isOneOf node = oneOf

/-- Sources with a definition of each type of a schema that tells it, and of no others. A scalar is
there already, and so are the standard types. -/
structure Retells (schema : Schema) (sources : Sources) : Prop where
  named : sources.Named
  standard : ∀ name t, schema.type? name = some t → isStandardType name →
    sources.find? name = some (.ready t) ∧ t.isInputObject = false
  scalar : ∀ name t url, schema.type? name = some t → isStandardType name = false →
    t.shape = .scalar url → sources.find? name = some (.ready t.unspecified)
  told : ∀ name t, schema.type? name = some t → isStandardType name = false →
    (∀ url, t.shape ≠ .scalar url) →
      ∃ node, sources.find? name = some (.written node []) ∧ ToldBy schema t node
  absent : ∀ name, schema.type? name = none → isStandardType name = false →
    sources.find? name = none

section Told

variable {schema : Schema} {sources : Sources} {name : String} {t : NamedType} {node : TypeNode}

/-- What a body is that has a given form apart from places. -/
theorem body_of_unplaced {body body' : TypeBody} : body.unplaced = body' →
    match body' with
    | .scalar => body = .scalar
    | .object interfaces fields =>
      ∃ ds, body = .object interfaces ds ∧ ds.map FieldDefinition.unplaced = fields
    | .interface interfaces fields =>
      ∃ ds, body = .interface interfaces ds ∧ ds.map FieldDefinition.unplaced = fields
    | .union members => body = .union members
    | .enum values => ∃ ds, body = .enum ds ∧ ds.map EnumValueDefinition.unplaced = values
    | .inputObject fields => ∃ ds, body = .inputObject ds ∧ ds.map InputDefinition.unplaced = fields := by
  rintro rfl
  cases body <;> simp [TypeBody.unplaced]

/-- What tells a type passes the tests that the type passes. -/
theorem ToldBy.tests (h : ToldBy schema t node) (hs : ∀ url, t.shape ≠ .scalar url) :
    (TypeSource.written node []).isInput = t.isInput
      ∧ (TypeSource.written node []).isOutput = t.isOutput
      ∧ (TypeSource.written node []).isInterface = t.isInterface
      ∧ (TypeSource.written node []).isObject = t.isObject := by
  have hbody := body_of_unplaced h.body
  simp only [TypeSource.isInput, TypeSource.isOutput, TypeSource.isInterface, TypeSource.isObject,
    NamedType.isInput, NamedType.isOutput, NamedType.isInputObject, NamedType.isLeaf,
    NamedType.isInterface, NamedType.isObject]
  cases ht : t.shape with
  | scalar url => exact (hs url ht).elim
  | union members =>
      rw [ht] at hbody
      simp [show node.body = _ from hbody]
  | object | interface | enum | inputObject =>
      rw [ht] at hbody
      obtain ⟨ds, hb, -⟩ := hbody
      simp [hb]

theorem Retells.tests (h : Retells schema sources) (ht : schema.type? name = some t) :
    ∃ source, sources.find? name = some source ∧ source.isInput = t.isInput
      ∧ source.isOutput = t.isOutput ∧ source.isInterface = t.isInterface
      ∧ source.isObject = t.isObject := by
  cases hs : isStandardType name with
  | true => exact ⟨_, (h.standard name t ht hs).1, rfl, rfl, rfl, rfl⟩
  | false =>
      by_cases hshape : ∃ url, t.shape = .scalar url
      · obtain ⟨url, hshape⟩ := hshape
        refine ⟨_, h.scalar name t url ht hs hshape, ?_⟩
        simp [TypeSource.isInput, TypeSource.isOutput, TypeSource.isInterface, TypeSource.isObject,
          NamedType.isInput, NamedType.isOutput, NamedType.isInputObject, NamedType.isLeaf,
          NamedType.isInterface, NamedType.isObject, NamedType.unspecified, hshape]
      · have hne : ∀ url, t.shape ≠ .scalar url := fun url he => hshape ⟨url, he⟩
        obtain ⟨node, hf, htold⟩ := h.told name t ht hs hne
        exact ⟨_, hf, htold.tests hne⟩

theorem Retells.isInput (h : Retells schema sources)
    (hl : Leads schema.type? NamedType.isInput name) : sources.test TypeSource.isInput name := by
  obtain ⟨t, ht, hi⟩ := hl
  obtain ⟨source, hf, hsource, -⟩ := h.tests ht
  simp [Sources.test, hf, hsource, hi]

theorem Retells.isOutput (h : Retells schema sources)
    (hl : Leads schema.type? NamedType.isOutput name) : sources.test TypeSource.isOutput name := by
  obtain ⟨t, ht, hi⟩ := hl
  obtain ⟨source, hf, -, hsource, -⟩ := h.tests ht
  simp [Sources.test, hf, hsource, hi]

theorem Retells.isInterface (h : Retells schema sources)
    (hl : Leads schema.type? NamedType.isInterface name) :
    sources.test TypeSource.isInterface name := by
  obtain ⟨t, ht, hi⟩ := hl
  obtain ⟨source, hf, -, -, hsource, -⟩ := h.tests ht
  simp [Sources.test, hf, hsource, hi]

theorem Retells.isObject (h : Retells schema sources)
    (hl : Leads schema.type? NamedType.isObject name) : sources.test TypeSource.isObject name := by
  obtain ⟨t, ht, hi⟩ := hl
  obtain ⟨source, hf, -, -, -, hsource⟩ := h.tests ht
  simp [Sources.test, hf, hsource, hi]

theorem isSome_of_test {test : TypeSource → Bool} (h : sources.test test name) :
    (sources.find? name).isSome := by
  unfold Sources.test at h
  cases hf : sources.find? name with
  | none => simp [hf] at h
  | some source => rfl

end Told

/-! ## Members that are told -/

/-- The default of an input is written as a literal that is read back. -/
def InputField.ReadBack (type? : String → Option NamedType)
    (shape : String → Except BuildFault (InputShape BuildFault)) (field : InputField) : Prop :=
  ∀ c ∈ field.default, Rereads type? shape c field.type

section Members

variable {schema : Schema} {sources : Sources}
  {shape : String → Except BuildFault (InputShape BuildFault)}

theorem check_of_test {test : TypeSource → Bool} {type : TypeRef}
    (h : sources.test test type.core) : sources.check type = .ok () :=
  check_eq_ok.mpr (isSome_of_test h)

theorem readDefault_told {field : InputField} {described : Bool}
    (hr : field.ReadBack schema.type? shape) {d : InputDefinition}
    (hd : d.unplaced = schema.inputDefinition described field) :
    readDefault shape d = .ok (field.retold schema.type? shape described).default := by
  have htype : d.type = field.type := congrArg InputDefinition.type hd
  have hdefault : d.default = schema.printedDefault field := congrArg InputDefinition.default hd
  rw [readDefault, hdefault, htype, Schema.printedDefault, writeDefault, InputField.retold]
  cases hc : field.default with
  | none => rfl
  | some c =>
      dsimp only
      rw [(hr c hc).writes]
      exact (hr c hc).reads

theorem inputField_told {field : InputField} {described : Bool} (wrongType : BuildFault)
    (ht : sources.test TypeSource.isInput field.type.core)
    (hr : field.ReadBack schema.type? shape) {d : InputDefinition}
    (hd : d.unplaced = schema.inputDefinition described field) :
    inputField sources shape wrongType d =
      .ok (field.retold schema.type? shape described) := by
  have hname : d.name = field.name := congrArg InputDefinition.name hd
  have htype : d.type = field.type := congrArg InputDefinition.type hd
  have hdescription : d.description = describedAs (if described then field.description else none) :=
    congrArg InputDefinition.description hd
  have hmarks := readDeprecation_marks (congrArg InputDefinition.directives hd)
  refine (bind_of_ok (check_of_test (htype ▸ ht))).trans ?_
  refine (bind_of_ok (readDefault_told hr hd)).trans ((bind_of_ok hmarks).trans ?_)
  rw [htype, if_pos ht, hname, hdescription, text_describedAs]
  rfl

variable (hs : Retells schema sources)
include hs

theorem argumentsFrom_told {arguments : List InputField}
    (hl : ∀ a ∈ arguments, a.Legible schema.type?) (hd : (arguments.map InputField.name).Nodup)
    (hr : ∀ a ∈ arguments, a.ReadBack schema.type? sources.shape) {ds : List InputDefinition}
    (hds : ds.map InputDefinition.unplaced = schema.argumentDefinitions arguments) :
    argumentsFrom sources ds = .ok (retoldArguments schema.type? sources.shape arguments) :=
  lastOfEach_told hds
    (fun a ha _ h => inputField_told _ (hs.isInput (hl a ha).input) (hr a ha) h) hd

theorem inputFields_told {fields : List InputField}
    (hl : ∀ f ∈ fields, f.Legible schema.type?) (hd : (fields.map InputField.name).Nodup)
    (hr : ∀ f ∈ fields, f.ReadBack schema.type? shape) {node : TypeNode}
    {ds : List InputDefinition} (hb : node.body = .inputObject ds)
    (hds : ds.map InputDefinition.unplaced = fields.map (schema.inputDefinition true)) :
    inputFields sources shape [node] =
      .ok (fields.map (InputField.retold schema.type? shape true)) := by
  have hnode : [node].flatMap inputDefinitionsOf = ds := by
    simp [inputDefinitionsOf, hb]
  rw [inputFields, hnode]
  exact lastOfEach_told hds
    (fun f hf _ h => inputField_told _ (hs.isInput (hl f hf).input) (hr f hf) h) hd

theorem outputField_told {field : Field} (hl : field.Legible schema.type?)
    (hr : ∀ a ∈ field.arguments, a.ReadBack schema.type? sources.shape) {d : FieldDefinition}
    (hd : d.unplaced = schema.fieldDefinition field) :
    outputField sources d = .ok (field.retold schema.type? sources.shape) := by
  have hname : d.name = field.name := congrArg FieldDefinition.name hd
  have htype : d.type = field.type := congrArg FieldDefinition.type hd
  have hdescription : d.description = describedAs field.description :=
    congrArg FieldDefinition.description hd
  have hmarks := readDeprecation_marks (congrArg FieldDefinition.directives hd)
  have harguments := argumentsFrom_told hs hl.arguments hl.nodup hr
    (congrArg FieldDefinition.arguments hd)
  have ht := hs.isOutput hl.output
  refine (bind_of_ok (check_of_test (htype ▸ ht))).trans ?_
  refine (bind_of_ok harguments).trans ((bind_of_ok hmarks).trans ?_)
  rw [htype, if_pos ht, hname, hdescription, text_describedAs]
  rfl

theorem outputFields_told {fields : List Field} (hl : ∀ f ∈ fields, f.Legible schema.type?)
    (hd : (fields.map Field.name).Nodup)
    (hr : ∀ f ∈ fields, ∀ a ∈ f.arguments, a.ReadBack schema.type? sources.shape)
    {node : TypeNode} {ds : List FieldDefinition} (hb : fieldDefinitionsOf node = ds)
    (hds : ds.map FieldDefinition.unplaced = fields.map schema.fieldDefinition) :
    outputFields sources [node] = .ok (fields.map (Field.retold schema.type? sources.shape)) := by
  have hnode : [node].flatMap fieldDefinitionsOf = ds := by simp [hb]
  rw [outputFields, hnode]
  exact lastOfEach_told hds (fun f hf _ h => outputField_told hs (hl f hf) (hr f hf) h) hd

theorem interfacesFrom_told {interfaces : List String} (owner : String)
    (hl : ∀ name ∈ interfaces, Leads schema.type? NamedType.isInterface name) {node : TypeNode}
    (hb : interfacesOf node = interfaces) : interfacesFrom sources owner [node] = .ok interfaces := by
  have hall : ∀ name ∈ interfaces, sources.test TypeSource.isInterface name :=
    fun name hn => hs.isInterface (hl name hn)
  have hnode : [node].flatMap interfacesOf = interfaces := by simp [hb]
  have hknown : knownNames sources interfaces = .ok interfaces :=
    knownNames_eq_ok.mpr ⟨fun name hn => isSome_of_test (hall name hn), rfl⟩
  unfold interfacesFrom
  rw [hnode, hknown]
  exact if_pos (List.all_eq_true.mpr hall)

theorem membersFrom_told {members : List String} (owner : String)
    (hl : ∀ name ∈ members, Leads schema.type? NamedType.isObject name) {node : TypeNode}
    (hb : membersOf node = members) : membersFrom sources owner [node] = .ok members := by
  have hall : ∀ name ∈ members, sources.test TypeSource.isObject name :=
    fun name hn => hs.isObject (hl name hn)
  have hnode : [node].flatMap membersOf = members := by simp [hb]
  have hknown : knownNames sources members = .ok members :=
    knownNames_eq_ok.mpr ⟨fun name hn => isSome_of_test (hall name hn), rfl⟩
  unfold membersFrom
  rw [hnode, hknown]
  exact if_pos (List.all_eq_true.mpr hall)

omit hs in
theorem enumValues_told {values : List EnumValue} (hd : (values.map EnumValue.name).Nodup)
    {node : TypeNode} {ds : List EnumValueDefinition} (hb : node.body = .enum ds)
    (hds : ds.map EnumValueDefinition.unplaced = values.map EnumValue.definition) :
    enumValues [node] = .ok values := by
  have hread : ds.mapM enumValue = .ok (values.map id) := by
    refine mapM_told hds fun value _ d h => ?_
    have hname : d.name = value.name := congrArg EnumValueDefinition.name h
    have hdescription : d.description = describedAs value.description :=
      congrArg EnumValueDefinition.description h
    have hmarks := readDeprecation_marks (congrArg EnumValueDefinition.directives h)
    refine (bind_of_ok hmarks).trans ?_
    rw [hname, hdescription, text_describedAs]
    rfl
  rw [List.map_id] at hread
  have hnode : [node].mapM (fun node => do (← valuesOf node).mapM enumValue) =
      Except.ok (ε := BuildFault) [values] := by
    rw [List.mapM_cons, valuesOf, hb]
    exact (bind_of_ok hread).trans rfl
  refine (bind_of_ok hnode).trans ?_
  rw [List.flatten_singleton, lastOfEach_of_nodup hd]
  rfl

/-- A directive is read as it is told. -/
theorem directiveType_told {d : DirectiveType} (hl : d.Legible schema.type?)
    (hr : ∀ a ∈ d.arguments, a.ReadBack schema.type? sources.shape) {node : DirectiveDefinition}
    (hd : node.unplaced = schema.directiveNode d) :
    directiveType sources node = .ok (d.retold schema.type? sources.shape) := by
  have hname : node.name = d.name := congrArg DirectiveDefinition.name hd
  have hdescription : node.description = describedAs d.description :=
    congrArg DirectiveDefinition.description hd
  have hrepeatable : node.repeatable = d.repeatable := congrArg DirectiveDefinition.repeatable hd
  have hlocations : node.locations = d.locations := congrArg DirectiveDefinition.locations hd
  have harguments := argumentsFrom_told hs hl.arguments hl.nodup hr
    (congrArg DirectiveDefinition.arguments hd)
  refine (bind_of_ok harguments).trans ?_
  rw [hname, hdescription, text_describedAs, hrepeatable, hlocations]
  rfl

/-- The shape of a type that is no scalar is read as it is told. -/
theorem shapeOf_told {t : NamedType} {node : TypeNode} (hl : t.Legible schema.type?)
    (hne : ∀ url, t.shape ≠ .scalar url)
    (hr : ∀ input ∈ t.inputs, input.ReadBack schema.type? sources.shape)
    (ht : ToldBy schema t node) :
    shapeOf sources node [] = .ok (t.shape.retold schema.type? sources.shape) := by
  have hbody := body_of_unplaced ht.body
  have hlegible := hl.shape
  have hfields : ∀ field ∈ t.fields, ∀ a ∈ field.arguments,
      a.ReadBack schema.type? sources.shape := fun field hf a ha =>
    hr a (List.mem_append_left _ (List.mem_flatMap.mpr ⟨field, hf, ha⟩))
  have hinputs : ∀ field ∈ t.inputFields, field.ReadBack schema.type? sources.shape :=
    fun field hf => hr field (List.mem_append_right _ hf)
  unfold NamedType.fields at hfields
  unfold NamedType.inputFields at hinputs
  unfold shapeOf
  cases hshape : t.shape with
  | scalar url => exact (hne url hshape).elim
  | object interfaces fields | interface interfaces fields =>
      rw [hshape] at hbody hlegible hfields
      obtain ⟨ds, hb, hds⟩ := hbody
      have hi : interfacesFrom sources node.name [node] = .ok interfaces :=
        interfacesFrom_told hs node.name (fun name hn => (hlegible.1 name hn).2)
          (by rw [interfacesOf, hb])
      have hf : outputFields sources [node] =
          .ok (fields.map (Field.retold schema.type? sources.shape)) :=
        outputFields_told hs hlegible.2.2 hlegible.2.1 hfields (by rw [fieldDefinitionsOf, hb]) hds
      rw [hb]
      exact (bind_of_ok hi).trans (bind_of_ok (congrArg (inPart node.name .fields) hf))
  | union members =>
      rw [hshape] at hbody hlegible
      have hb : node.body = .union members := hbody
      have hm : membersFrom sources node.name [node] = .ok members :=
        membersFrom_told hs node.name (fun name hn => (hlegible name hn).2) (by rw [membersOf, hb])
      rw [hb]
      exact bind_of_ok hm
  | enum values =>
      rw [hshape] at hbody hlegible
      obtain ⟨ds, hb, hds⟩ := hbody
      rw [hb]
      exact bind_of_ok (enumValues_told hlegible.1 hb hds)
  | inputObject fields oneOf =>
      rw [hshape] at hbody hlegible hinputs
      obtain ⟨ds, hb, hds⟩ := hbody
      have hf := inputFields_told hs hlegible.2 hlegible.1 hinputs hb hds
      rw [hb, ← ht.oneOf fields oneOf hshape]
      exact bind_of_ok (congrArg (inPart node.name .fields) hf)

/-- A type that is no scalar is read as it is told. -/
theorem type_told {t : NamedType} {node : TypeNode} (hl : t.Legible schema.type?)
    (hne : ∀ url, t.shape ≠ .scalar url)
    (hr : ∀ input ∈ t.inputs, input.ReadBack schema.type? sources.shape)
    (ht : ToldBy schema t node) :
    (TypeSource.written node []).type sources = .ok (t.retold schema.type? sources.shape) := by
  refine (bind_of_ok (shapeOf_told hs hl hne hr ht)).trans ?_
  rw [ht.name, ht.description, text_describedAs]
  rfl

end Members

end SdlAssembly.Schemas
