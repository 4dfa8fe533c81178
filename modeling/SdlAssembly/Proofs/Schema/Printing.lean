import SdlAssembly.Proofs.Outcomes
import SdlAssembly.Proofs.Schema.Literals
import SdlAssembly.Proofs.Text.Writable
import SdlAssembly.Proofs.Tree.DefinitionPrinting
import SdlAssembly.Schema.Printer

/-!
# Printed schemas

A printed schema with legible names spells the lexemes of its definitions: its schema definition if
that says something, its directives and its types, with no directives but the standard ones.
-/

namespace SdlAssembly.Schemas

open Grammar Text Lexer

variable {width : Nat}

/-! ## Descriptions -/

/-- A description in the form that it is printed in. -/
def describedAs (description : Option String) : Option Description :=
  description.map fun text => ⟨text, Block.isWritable text⟩

theorem formed_describedAs {description : Option String} :
    ∀ t ∈ describedAs description, Formed t.lexeme := by
  intro t ht
  obtain ⟨text, -, rfl⟩ := Option.map_eq_some_iff.mp ht
  cases hb : Block.isWritable text with
  | true =>
      rw [Description.lexeme]
      exact Block.dedented_of_isWritable hb
  | false => trivial

theorem toList_indentRest {indentation : String} {more : Nat}
    (h : indentation.toList = Block.margin more) (text : String) :
    (indentRest indentation text).toList = Block.shiftBy more text.toList := by
  rw [indentRest, String.toList_ofList, h, Block.shiftBy]
  simp

theorem toList_none : "".toList = Block.margin 0 := rfl

theorem toList_two : "  ".toList = Block.margin 2 := rfl

theorem spells_margin {indentation : String} {more : Nat}
    (h : indentation.toList = Block.margin more) : SpellsClosed width indentation [] := by
  intro tail
  have hm : Block.shiftBy width (Block.margin more) = Block.margin more :=
    Block.shiftBy_of_no_newline fun c hc => (Block.margin_noEnds more c hc).1
  rw [h, hm, lexemes_margin, List.nil_append]

theorem spells_described (description : Option String) {indentation : String} {more : Nat}
    (h : indentation.toList = Block.margin more) (first : Bool) :
    SpellsClosed width (printDescribed description indentation first)
      (descriptionLexemes (describedAs description)) := by
  cases description with
  | none => exact .of_marks rfl
  | some text =>
      have hbreak : SpellsClosed width (if !indentation.isEmpty && !first then "\n" else "") [] := by
        split <;> exact .of_marks rfl
      have hliteral : Spells width
          (indentRest indentation (printString text (Block.isWritable text)))
          [.string text (Block.isWritable text)] := by
        intro tail ht
        rw [toList_indentRest h, Block.shiftBy_shiftBy]
        exact spells_string (formed_describedAs _ (rfl : describedAs (some text) = some _)) tail ht
      exact ((hbreak.append_closed (spells_margin h)).append hliteral).append_closed isSeparator_newline

/-- A description with the indentation of what it describes. -/
theorem spells_heading (description : Option String) {indentation : String} {more : Nat}
    (h : indentation.toList = Block.margin more) (first : Bool) :
    SpellsClosed width (printDescribed description indentation first ++ indentation)
      (descriptionLexemes (describedAs description)) := by
  have hd : SpellsClosed width _ _ := spells_described description h first
  have hall := hd.append_closed (spells_margin h)
  rwa [List.append_nil] at hall

/-! ## Marks -/

/-- The directives that printed schemas have. -/
def marks : List String := [deprecatedDirective, specifiedByDirective, oneOfDirective]

def Marked (directives : List Directive) : Prop := ∀ d ∈ directives, d.name ∈ marks

/-- A directive with a text for an argument. -/
def textMark (name argument text : String) : Directive :=
  { name := name, arguments := [{ name := argument, value := .string text false }] }

def deprecationMarks : Option String → List Directive
  | none => []
  | some reason =>
    if reason == defaultReason then [{ name := deprecatedDirective }]
    else [textMark deprecatedDirective "reason" reason]

def specifiedByMarks (url : Option String) : List Directive :=
  (url.map (textMark specifiedByDirective "url")).toList

theorem constant_mark {name : String} (h : IsName name) :
    Directive.Constant { name := name } :=
  ⟨h, by simp, trivial⟩

theorem constant_textMark {name argument : String} (hn : IsName name) (ha : IsName argument)
    (text : String) : (textMark name argument text).Constant := by
  refine ⟨hn, fun a hm => ?_, trivial⟩
  obtain rfl := List.mem_singleton.mp hm
  exact ⟨ha, trivial, trivial⟩

theorem constant_deprecationMarks (deprecation : Option String) :
    ∀ d ∈ deprecationMarks deprecation, d.Constant ∧ d.name ∈ marks := by
  have hn : IsName deprecatedDirective := by decide
  cases deprecation with
  | none => simp [deprecationMarks]
  | some reason =>
      unfold deprecationMarks
      dsimp only
      split
      · simpa [marks] using constant_mark hn
      · have hr : IsName "reason" := by decide
        simpa [marks, textMark] using constant_textMark hn hr reason

theorem constant_specifiedByMarks (url : Option String) :
    ∀ d ∈ specifiedByMarks url, d.Constant ∧ d.name ∈ marks := by
  have hn : IsName specifiedByDirective := by decide
  cases url with
  | none => simp [specifiedByMarks]
  | some url =>
      have hu : IsName "url" := by decide
      simpa [specifiedByMarks, marks, textMark] using constant_textMark hn hu url

/-- The lexemes of a mark with a text. -/
theorem spells_textMark {name argument before text : String}
    (h : SpellsClosed width before [.punctuator .atSign, .name name, .punctuator .parenOpen,
      .name argument, .punctuator .colon]) :
    Spells width (before ++ Quoted.quote text ++ ")")
      (directiveLexemes [textMark name argument text]) := by
  have hc : IsSeparator width ")" [.punctuator .parenClose] :=
    ⟨.of_marks rfl, by decide, by decide⟩
  exact ((h.append (.quotedString text)).append_closed hc).spells

theorem spells_deprecation (deprecation : Option String) :
    Spells width (printDeprecation deprecation)
      (directiveLexemes (deprecationMarks deprecation)) := by
  cases deprecation with
  | none => exact .empty
  | some reason =>
      unfold printDeprecation deprecationMarks
      dsimp only
      split
      · have ha : SpellsClosed width " @" [.punctuator .atSign] := .of_marks rfl
        have hn : Spells width "deprecated" [.name "deprecated"] := .name (by decide)
        have he : " @deprecated" = " @" ++ "deprecated" := by decide
        rw [he]
        exact ha.append hn
      · exact spells_textMark (.of_marks rfl)

theorem apart_deprecation (deprecation : Option String) :
    Apart (printDeprecation deprecation).toList := by
  cases deprecation with
  | none => exact .nil
  | some reason =>
      unfold printDeprecation
      dsimp only
      split
      · decide
      · exact apart_append (apart_append (by decide) (by decide) _) (by simp) _

theorem spells_specifiedBy (url : Option String) :
    Spells width (printSpecifiedBy url) (directiveLexemes (specifiedByMarks url)) := by
  cases url with
  | none => exact .empty
  | some url => exact spells_textMark (.of_marks rfl)

theorem apart_specifiedBy (url : Option String) : Apart (printSpecifiedBy url).toList := by
  cases url with
  | none => exact .nil
  | some url => exact apart_append (apart_append (by decide) (by decide) _) (by simp) _

/-! ## Inputs -/

/-- An input in the form that it is printed in, with the literal of its default. -/
def InputField.definition (field : InputField) (description : Option String)
    (default : Option Value) : InputDefinition :=
  { description := describedAs description
    name := field.name
    type := field.type
    default := default
    directives := deprecationMarks field.deprecation }

/-- The literal that the default of an input is printed as, in the form in which it is read. -/
def Schema.printedDefault (schema : Schema) (field : InputField) : Option Value :=
  ((writeDefault schema field).toOption.join).map spelling

/-- An input as it is printed, with its description or without. -/
def Schema.inputDefinition (schema : Schema) (described : Bool) (field : InputField) :
    InputDefinition :=
  field.definition (if described then field.description else none) (schema.printedDefault field)

/-- Inputs that can be written and have standard directives only. -/
def IsInput (d : InputDefinition) : Prop := d.Proper ∧ Marked d.directives

section Inputs

variable {schema : Schema} {field : InputField} {text : String}

theorem spelt_writeDefault {v : Value} (hf : field.Legible schema.type?)
    (h : writeDefault schema field = .ok (some v)) : Spelt v := by
  unfold writeDefault at h
  cases hc : field.default with
  | none =>
      rw [hc] at h
      cases h
  | some value =>
      rw [hc] at h
      exact writes_fits (hf.default value hc) v h

theorem printedDefault_eq {default : Option Value} (h : writeDefault schema field = .ok default) :
    schema.printedDefault field = default.map spelling := by
  rw [Schema.printedDefault, h]
  rfl

theorem isInput_inputDefinition (h : field.Legible schema.type?) (described : Bool) :
    IsInput (schema.inputDefinition described field) := by
  have hmarks := constant_deprecationMarks field.deprecation
  refine ⟨⟨formed_describedAs, h.name, h.type, fun v hv => ?_, fun d hm => (hmarks d hm).1⟩,
    fun d hm => (hmarks d hm).2⟩
  obtain ⟨literal, hl, rfl⟩ := Option.map_eq_some_iff.mp hv
  cases hw : writeDefault schema field with
  | error cause =>
      rw [hw] at hl
      cases hl
  | ok default =>
      rw [hw] at hl
      obtain rfl : default = some literal := hl
      exact (spelt_writeDefault h hw).proper

theorem spells_printWritten {default : Option Value} (h : ∀ v, default = some v → Spelt v) :
    Spells width (printWritten default) (defaultLexemes (default.map spelling)) := by
  cases default with
  | none => exact .empty
  | some v =>
      have he : SpellsClosed width " = " [.punctuator .equals] := .of_marks rfl
      exact he.append ((h v rfl).spells width)

theorem apart_printWritten (default : Option Value) : Apart (printWritten default).toList := by
  cases default with
  | none => exact .nil
  | some v => exact apart_append (by decide) (by decide) _

theorem spells_printInput (hf : field.Legible schema.type?)
    (hp : printInput schema field = .ok text) :
    Spells width text (schema.inputDefinition false field).lexemes := by
  obtain ⟨default, hd, hp⟩ := Except.bind_eq_ok hp
  cases hp
  have hs : Spells width (printWritten default) _ :=
    spells_printWritten fun v hv => spelt_writeDefault hf (hv ▸ hd)
  rw [← printedDefault_eq hd] at hs
  have htype : Spells width field.type.print _ := hf.type.spells
  have hdefault := (spells_labelled hf.name htype).append hs (apart_printWritten default)
  have hall := hdefault.append (spells_deprecation field.deprecation)
    (apart_deprecation field.deprecation)
  simpa [Schema.inputDefinition, InputField.definition, InputDefinition.lexemes,
    descriptionLexemes, describedAs] using hall

end Inputs

/-! ## Lists of members -/

section Members

variable {α : Type} {as : List α} {texts : List String}

/-- Each item beside its text. -/
theorem printEach_pairs {print : Bool → α → Printed} (h : printEach print as = .ok texts) :
    ∃ ps : List (String × α), ps.map Prod.fst = texts ∧ ps.map Prod.snd = as
      ∧ ∀ p ∈ ps, ∃ first, print first p.2 = .ok p.1 := by
  cases as with
  | nil =>
      cases h
      exact ⟨[], rfl, rfl, by simp⟩
  | cons a as =>
      obtain ⟨text, ht, h⟩ := Except.bind_eq_ok h
      obtain ⟨rest, hr, h⟩ := Except.bind_eq_ok h
      cases h
      obtain ⟨ps, rfl, rfl, hps⟩ := Except.mapM_pairs hr
      exact ⟨(text, a) :: ps, rfl, rfl,
        List.forall_mem_cons.mpr ⟨⟨true, ht⟩, fun p hp => ⟨false, hps p hp⟩⟩⟩

variable {ps : List (String × α)} {lex : α → List Lexeme}

theorem spells_lines {sep : String} (hs : IsSeparator width sep [])
    (h : ∀ p ∈ ps, Spells width p.1 (lex p.2)) :
    Spells width (sep.intercalate (ps.map Prod.fst)) ((ps.map Prod.snd).flatMap lex) := by
  have hi := Spells.intercalate hs h
  rw [intercalate_nil] at hi
  rwa [List.flatMap_map]

theorem spells_between {o sep e : String} {opening closing : Punctuator}
    (ho : SpellsClosed width o [.punctuator opening]) (hs : IsSeparator width sep [])
    (he : IsSeparator width e [.punctuator closing]) (hne : ps ≠ [])
    (h : ∀ p ∈ ps, Spells width p.1 (lex p.2)) :
    Spells width (o ++ sep.intercalate (ps.map Prod.fst) ++ e)
      (enclosed opening closing ((ps.map Prod.snd).map lex)) := by
  have hall := ((ho.append (spells_lines hs h)).append_closed he).spells
  simpa [enclosed, hne, List.flatMap_def] using hall

/-- Members on lines of their own. -/
theorem spells_printBlock (h : ∀ p ∈ ps, Spells width p.1 (lex p.2)) :
    Spells width (printBlock (ps.map Prod.fst))
      (enclosed .braceOpen .braceClose ((ps.map Prod.snd).map lex)) := by
  by_cases hne : ps = []
  · subst hne
    exact .empty
  · have hb : (ps.map Prod.fst).isEmpty = false := by simpa using hne
    rw [printBlock, hb, if_neg Bool.false_ne_true]
    exact spells_between (.of_marks rfl) isSeparator_newline
      ⟨.of_marks rfl, by decide, by decide⟩ hne h

theorem apart_printBlock (items : List String) : Apart (printBlock items).toList := by
  unfold printBlock
  split
  · exact .nil
  · exact apart_append (apart_append (by decide) (by decide) _) (by simp) _

/-- Arguments in one line. -/
theorem spells_inLine (hne : ps ≠ []) (h : ∀ p ∈ ps, Spells width p.1 (lex p.2)) :
    Spells width ("(" ++ ", ".intercalate (ps.map Prod.fst) ++ ")")
        (enclosed .parenOpen .parenClose ((ps.map Prod.snd).map lex))
      ∧ Apart ("(" ++ ", ".intercalate (ps.map Prod.fst) ++ ")").toList :=
  ⟨spells_between (.of_marks rfl) isSeparator_comma ⟨.of_marks rfl, by decide, by decide⟩ hne h,
    apart_append (apart_append (by decide) (by decide) _) (by simp) _⟩

/-- Arguments on lines of their own. -/
theorem spells_onLines {indentation : String} {more : Nat}
    (hi : indentation.toList = Block.margin more) (hne : ps ≠ [])
    (h : ∀ p ∈ ps, Spells width p.1 (lex p.2)) :
    Spells width ("(\n" ++ "\n".intercalate (ps.map Prod.fst) ++ "\n" ++ indentation ++ ")")
        (enclosed .parenOpen .parenClose ((ps.map Prod.snd).map lex))
      ∧ Apart ("(\n" ++ "\n".intercalate (ps.map Prod.fst) ++ "\n" ++ indentation ++ ")").toList := by
  have ho : SpellsClosed width "(\n" [.punctuator .parenOpen] := .of_marks rfl
  have hclose : IsSeparator width ("\n" ++ indentation ++ ")") [.punctuator .parenClose] := by
    have hn : SpellsClosed width "\n" [] := .of_marks rfl
    have hc : SpellsClosed width ")" [.punctuator .parenClose] := .of_marks rfl
    refine ⟨(hn.append_closed (spells_margin hi)).append_closed hc, ?_, by simp⟩
    rw [String.append_assoc]
    exact apart_append (by decide) (by decide) _
  have hall := spells_between ho isSeparator_newline hclose hne h
  constructor
  · simpa only [String.append_assoc] using hall
  · simp only [String.append_assoc]
    exact apart_append (by decide) (by decide) _

/-- Members that are printed on lines of their own. -/
theorem spells_members {print : Bool → α → Printed}
    (hf : ∀ first, ∀ a ∈ as, ∀ line, print first a = .ok line → Spells width line (lex a))
    (h : printEach print as = .ok texts) :
    Spells width (printBlock texts) (enclosed .braceOpen .braceClose (as.map lex)) := by
  obtain ⟨ps, rfl, rfl, hps⟩ := printEach_pairs h
  refine spells_printBlock fun p hp => ?_
  obtain ⟨first, hline⟩ := hps p hp
  exact hf first p.2 (List.mem_map_of_mem hp) p.1 hline

end Members

/-! ## Arguments and fields -/

/-- Arguments are printed on one line if none of them has a description that says something. -/
def undescribed (arguments : List InputField) : Bool :=
  arguments.all fun argument => (argument.description.getD "").isEmpty

def Schema.argumentDefinitions (schema : Schema) (arguments : List InputField) :
    List InputDefinition :=
  arguments.map (schema.inputDefinition !undescribed arguments)

def Schema.fieldDefinition (schema : Schema) (field : Field) : FieldDefinition :=
  { description := describedAs field.description
    name := field.name
    arguments := schema.argumentDefinitions field.arguments
    type := field.type
    directives := deprecationMarks field.deprecation }

def EnumValue.definition (value : EnumValue) : EnumValueDefinition :=
  { description := describedAs value.description
    name := value.name
    directives := deprecationMarks value.deprecation }

/-- Fields that can be written and have standard directives only. -/
def IsField (d : FieldDefinition) : Prop := d.Proper ∧ Marked d.allDirectives

/-- Enum values that can be written and have standard directives only. -/
def IsEnumValue (d : EnumValueDefinition) : Prop := d.Proper ∧ Marked d.directives

section Fields

variable {schema : Schema} {text : String}

theorem isInput_argumentDefinitions {arguments : List InputField}
    (h : ∀ a ∈ arguments, a.Legible schema.type?) :
    ∀ d ∈ schema.argumentDefinitions arguments, IsInput d := by
  intro d hd
  obtain ⟨a, ha, rfl⟩ := List.mem_map.mp hd
  exact isInput_inputDefinition (h a ha) _

theorem isField_fieldDefinition {field : Field} (hf : field.Legible schema.type?) :
    IsField (schema.fieldDefinition field) := by
  have hmarks := constant_deprecationMarks field.deprecation
  have harguments := isInput_argumentDefinitions hf.arguments
  refine ⟨⟨formed_describedAs, hf.name, fun d hd => (harguments d hd).1, hf.type,
    fun d hd => (hmarks d hd).1⟩, fun d hd => ?_⟩
  rcases List.mem_append.mp hd with hd | hd
  · exact (hmarks d hd).2
  · obtain ⟨a, ha, hd⟩ := List.mem_flatMap.mp hd
    exact (harguments a ha).2 d hd

theorem isEnumValue_definition {value : EnumValue} (hv : value.Legible) :
    IsEnumValue value.definition :=
  ⟨⟨formed_describedAs, hv, fun d hd => (constant_deprecationMarks value.deprecation d hd).1⟩,
    fun d hd => (constant_deprecationMarks value.deprecation d hd).2⟩

theorem spells_describedInput {field : InputField} {indentation : String} {more : Nat}
    (hi : indentation.toList = Block.margin more) (first : Bool) {line : String}
    (hf : field.Legible schema.type?) (hp : printInput schema field = .ok line) :
    Spells width (printDescribed field.description indentation first ++ indentation ++ line)
      (schema.inputDefinition true field).lexemes :=
  (spells_heading field.description hi first).append (spells_printInput hf hp)

/-- Items of a list that is not empty give something. -/
theorem ne_nil_of_map {α γ : Type} {f : γ → α} {ps : List γ} (hne : ¬(ps.map f).isEmpty) :
    ps ≠ [] := by
  rintro rfl
  exact hne rfl

theorem spells_printArguments {arguments : List InputField} {indentation : String} {more : Nat}
    (hi : indentation.toList = Block.margin more)
    (h : ∀ a ∈ arguments, a.Legible schema.type?)
    (hp : printArguments schema arguments indentation = .ok text) :
    Spells width text (enclosed .parenOpen .parenClose
        ((schema.argumentDefinitions arguments).map InputDefinition.lexemes))
      ∧ Apart text.toList := by
  unfold printArguments at hp
  split at hp
  · rename_i he
    cases hp
    rw [List.isEmpty_iff.mp he]
    exact ⟨.empty, .nil⟩
  · rename_i hne
    split at hp
    · rename_i hu
      have hu : undescribed arguments = true := hu
      obtain ⟨texts, ht, hp⟩ := Except.bind_eq_ok hp
      cases hp
      obtain ⟨ps, rfl, rfl, hps⟩ := Except.mapM_pairs ht
      rw [Schema.argumentDefinitions, hu, List.map_map]
      exact spells_inLine (ne_nil_of_map hne) fun p hp =>
        spells_printInput (h p.2 (List.mem_map_of_mem hp)) (hps p hp)
    · rename_i hu
      have hu : undescribed arguments = false := Bool.eq_false_iff.mpr hu
      have hinner : ("  " ++ indentation).toList = Block.margin (more + 2) := by
        rw [String.toList_append, hi, toList_two, Nat.add_comm]
        exact List.replicate_append_replicate
      obtain ⟨texts, ht, hp⟩ := Except.bind_eq_ok hp
      cases hp
      obtain ⟨ps, rfl, rfl, hps⟩ := printEach_pairs ht
      rw [Schema.argumentDefinitions, hu, List.map_map]
      refine spells_onLines hi (ne_nil_of_map hne) fun p hp => ?_
      obtain ⟨first, hline⟩ := hps p hp
      obtain ⟨line, hl, hline⟩ := Except.bind_eq_ok hline
      rw [← Except.ok.inj hline]
      exact spells_describedInput hinner first (h p.2 (List.mem_map_of_mem hp)) hl

theorem spells_printField {field : Field} (hf : field.Legible schema.type?) (first : Bool)
    {line : String} (hp : (do
      return printDescribed field.description "  " first ++ "  " ++ field.name
        ++ (← printArguments schema field.arguments "  ") ++ ": " ++ field.type.print
        ++ printDeprecation field.deprecation) = Except.ok line) :
    Spells width line (schema.fieldDefinition field).lexemes := by
  obtain ⟨arguments, ha, hp⟩ := Except.bind_eq_ok hp
  cases hp
  obtain ⟨hs, hapart⟩ : Spells width arguments _ ∧ Apart arguments.toList :=
    spells_printArguments toList_two hf.arguments ha
  have hc : IsSeparator width ": " [.punctuator .colon] := ⟨.of_marks rfl, by decide, by decide⟩
  have htype : Spells width field.type.print _ := hf.type.spells
  have hhead : SpellsClosed width _ _ := spells_heading field.description toList_two first
  have hname := (hhead.append (.name hf.name)).append hs hapart
  have hall := ((hname.append_closed hc).append htype).append
    (spells_deprecation field.deprecation) (apart_deprecation field.deprecation)
  simpa [Schema.fieldDefinition, FieldDefinition.lexemes] using hall

theorem spells_printFields {fields : List Field} (h : ∀ f ∈ fields, f.Legible schema.type?)
    (hp : printFields schema fields = .ok text) :
    Spells width text (enclosed .braceOpen .braceClose
        ((fields.map schema.fieldDefinition).map FieldDefinition.lexemes))
      ∧ Apart text.toList := by
  obtain ⟨texts, ht, hp⟩ := Except.bind_eq_ok hp
  cases hp
  rw [List.map_map]
  refine ⟨spells_members (fun first f hf line hline => ?_) ht, apart_printBlock texts⟩
  exact spells_printField (h f hf) first hline

theorem spells_printEnumValue {value : EnumValue} (hv : value.Legible) (first : Bool) :
    Spells width (printDescribed value.description "  " first ++ "  " ++ value.name
      ++ printDeprecation value.deprecation) value.definition.lexemes := by
  have hhead : SpellsClosed width _ _ := spells_heading value.description toList_two first
  have hall := (hhead.append (.name hv.1)).append
    (spells_deprecation value.deprecation) (apart_deprecation value.deprecation)
  simpa [EnumValue.definition, EnumValueDefinition.lexemes] using hall

theorem spells_printEnumValues {values : List EnumValue} (h : ∀ v ∈ values, v.Legible)
    (hp : printEnumValues values = .ok text) :
    Spells width text (enclosed .braceOpen .braceClose
        ((values.map EnumValue.definition).map EnumValueDefinition.lexemes))
      ∧ Apart text.toList := by
  obtain ⟨texts, ht, hp⟩ := Except.bind_eq_ok hp
  cases hp
  rw [List.map_map]
  refine ⟨spells_members (fun first v hv line hline => ?_) ht, apart_printBlock texts⟩
  cases hline
  exact spells_printEnumValue (h v hv) first

theorem spells_printInputFields {fields : List InputField}
    (h : ∀ f ∈ fields, f.Legible schema.type?) (hp : printInputFields schema fields = .ok text) :
    Spells width text (enclosed .braceOpen .braceClose
        ((fields.map (schema.inputDefinition true)).map InputDefinition.lexemes))
      ∧ Apart text.toList := by
  obtain ⟨texts, ht, hp⟩ := Except.bind_eq_ok hp
  cases hp
  rw [List.map_map]
  refine ⟨spells_members (fun first f hf line hline => ?_) ht, apart_printBlock texts⟩
  obtain ⟨input, hinput, hline⟩ := Except.bind_eq_ok hline
  cases hline
  exact spells_describedInput toList_two first (h f hf) hinput

end Fields

/-! ## Types -/

/-- Definitions of a type system that can be written and have standard directives only. -/
def IsPrinted (d : Definition) : Prop := d.IsTypeSystem ∧ d.Proper ∧ Marked d.allDirectives

def oneOfMarks (oneOf : Bool) : List Directive :=
  if oneOf then [{ name := oneOfDirective }] else []

/-- The directives that a type is printed with. -/
def TypeShape.marks : TypeShape → List Directive
  | .scalar url => specifiedByMarks url
  | .inputObject _ oneOf => oneOfMarks oneOf
  | .object _ _ | .interface _ _ | .union _ | .enum _ => []

def Schema.body (schema : Schema) : TypeShape → TypeBody
  | .scalar _ => .scalar
  | .object interfaces fields => .object interfaces (fields.map schema.fieldDefinition)
  | .interface interfaces fields => .interface interfaces (fields.map schema.fieldDefinition)
  | .union members => .union members
  | .enum values => .enum (values.map EnumValue.definition)
  | .inputObject fields _ => .inputObject (fields.map (schema.inputDefinition true))

def Schema.typeNode (schema : Schema) (t : NamedType) : TypeNode :=
  { description := describedAs t.description
    name := t.name
    directives := t.shape.marks
    body := schema.body t.shape }

section Types

variable {schema : Schema} {text : String}

theorem spells_announced {before sep : String} {l : Lexeme} {p : Punctuator}
    {names : List String} (hb : SpellsClosed width before [l])
    (hs : IsSeparator width sep [.punctuator p]) (h : ∀ name ∈ names, IsName name) :
    Spells width (if names.isEmpty then "" else before ++ sep.intercalate names)
      (listedLexemes l p names) := by
  unfold listedLexemes
  split
  · exact .empty
  · exact hb.append (spells_names hs h)

theorem apart_announced {before : String} (hb : Apart before.toList) (hne : before ≠ "")
    (sep : String) (names : List String) :
    Apart (if names.isEmpty then "" else before ++ sep.intercalate names).toList := by
  split
  · exact .nil
  · exact apart_append hb hne _

theorem constant_oneOfMarks (oneOf : Bool) :
    ∀ d ∈ oneOfMarks oneOf, d.Constant ∧ d.name ∈ marks := by
  have hn : IsName oneOfDirective := by decide
  cases oneOf with
  | false => simp [oneOfMarks]
  | true => simpa [oneOfMarks, marks] using constant_mark hn

theorem spells_oneOf (oneOf : Bool) :
    Spells width (if oneOf then " @oneOf" else "") (directiveLexemes (oneOfMarks oneOf)) := by
  cases oneOf with
  | false => exact .empty
  | true =>
      have ha : SpellsClosed width " @" [.punctuator .atSign] := .of_marks rfl
      have hn : Spells width "oneOf" [.name "oneOf"] := .name (by decide)
      have he : " @oneOf" = " @" ++ "oneOf" := by decide
      rw [if_pos rfl, he]
      exact ha.append hn

theorem apart_oneOf (oneOf : Bool) : Apart (if oneOf then " @oneOf" else "").toList := by
  cases oneOf <;> decide

/-- A type definition from the texts of its parts. -/
theorem spells_typeText (description : Option String)
    {name word heading directiveText contents : String} {directives : List Directive}
    {body : TypeBody} (hn : IsName name)
    (hw : SpellsClosed width word [.name body.keyword])
    (hh : Spells width heading body.heading) (hha : Apart heading.toList)
    (hd : Spells width directiveText (directiveLexemes directives))
    (hda : Apart directiveText.toList)
    (hc : Spells width contents body.contents) (hca : Apart contents.toList) :
    Spells width
      (printDescribed description ++ word ++ name ++ heading ++ directiveText ++ contents)
      (TypeNode.mk (describedAs description) name directives body).lexemes := by
  have hdesc : SpellsClosed width (printDescribed description) _ :=
    spells_described description toList_none true
  have hname := (hdesc.append_closed hw).append (.name hn)
  have hall := ((hname.append hh hha).append hd hda).append hc hca
  simpa [TypeNode.lexemes] using hall

theorem marked_flatMap {α : Type} {items : List α} {directives : α → List Directive}
    (h : ∀ item ∈ items, Marked (directives item)) : Marked (items.flatMap directives) := by
  intro d hd
  obtain ⟨item, hi, hd⟩ := List.mem_flatMap.mp hd
  exact h item hi d hd

theorem constant_marks (shape : TypeShape) : ∀ d ∈ shape.marks, d.Constant ∧ d.name ∈ marks := by
  cases shape with
  | scalar url => exact constant_specifiedByMarks url
  | inputObject fields oneOf => exact constant_oneOfMarks oneOf
  | _ => simp [TypeShape.marks]

theorem proper_body {shape : TypeShape} (h : shape.Legible schema.type?) :
    (schema.body shape).Proper ∧ Marked (schema.body shape).allDirectives := by
  have hfields : ∀ fields : List Field, (∀ f ∈ fields, f.Legible schema.type?) →
      ∀ d ∈ fields.map schema.fieldDefinition, IsField d := by
    intro fields hf d hd
    obtain ⟨field, hm, rfl⟩ := List.mem_map.mp hd
    exact isField_fieldDefinition (hf field hm)
  cases shape with
  | scalar url => exact ⟨trivial, by simp [Marked, Schema.body, TypeBody.allDirectives]⟩
  | object interfaces fields =>
      have hds := hfields fields h.2.2
      exact ⟨⟨fun name hn => (h.1 name hn).1, fun d hd => (hds d hd).1⟩,
        marked_flatMap fun d hd => (hds d hd).2⟩
  | interface interfaces fields =>
      have hds := hfields fields h.2.2
      exact ⟨⟨fun name hn => (h.1 name hn).1, fun d hd => (hds d hd).1⟩,
        marked_flatMap fun d hd => (hds d hd).2⟩
  | union members =>
      exact ⟨fun name hn => (h name hn).1, by simp [Marked, Schema.body, TypeBody.allDirectives]⟩
  | enum values =>
      have hds : ∀ d ∈ values.map EnumValue.definition, IsEnumValue d := by
        intro d hd
        obtain ⟨value, hm, rfl⟩ := List.mem_map.mp hd
        exact isEnumValue_definition (h.2 value hm)
      exact ⟨fun d hd => (hds d hd).1, marked_flatMap fun d hd => (hds d hd).2⟩
  | inputObject fields oneOf =>
      have hds : ∀ d ∈ fields.map (schema.inputDefinition true), IsInput d := by
        intro d hd
        obtain ⟨field, hm, rfl⟩ := List.mem_map.mp hd
        exact isInput_inputDefinition (h.2 field hm) true
      exact ⟨fun d hd => (hds d hd).1, marked_flatMap fun d hd => (hds d hd).2⟩

theorem isPrinted_typeNode {t : NamedType} (ht : t.Legible schema.type?) :
    IsPrinted (.type (schema.typeNode t)) := by
  obtain ⟨hproper, hmarked⟩ := proper_body ht.shape
  have hmarks := constant_marks t.shape
  refine ⟨trivial, ⟨formed_describedAs, ht.name, fun d h => (hmarks d h).1, hproper⟩,
    fun d h => ?_⟩
  rcases List.mem_append.mp h with h | h
  · exact (hmarks d h).2
  · exact hmarked d h

theorem spells_printType {t : NamedType} (ht : t.Legible schema.type?)
    (hp : printType schema t = .ok text) : Spells width text (schema.typeNode t).lexemes := by
  obtain ⟨name, description, shape⟩ := t
  obtain ⟨hn, hshape⟩ := ht
  have hnone : Spells width "" (directiveLexemes []) := .empty
  have hand : IsSeparator width " & " [.punctuator .ampersand] :=
    ⟨.of_marks rfl, by decide, by decide⟩
  have hor : IsSeparator width " | " [.punctuator .pipe] := ⟨.of_marks rfl, by decide, by decide⟩
  have himplements : SpellsClosed width " implements " [.name "implements"] := .of_marks rfl
  cases shape with
  | scalar url =>
      cases hp
      have hw : SpellsClosed width "scalar " [.name TypeBody.scalar.keyword] := .of_marks rfl
      have hall := spells_typeText description hn hw .empty .nil (spells_specifiedBy url)
        (apart_specifiedBy url) .empty .nil
      simpa [printImplements, Schema.typeNode, TypeShape.marks, Schema.body] using hall
  | object interfaces fields =>
      obtain ⟨contents, hc, hp⟩ := Except.bind_eq_ok hp
      cases hp
      obtain ⟨hs, ha⟩ : Spells width contents _ ∧ Apart contents.toList :=
        spells_printFields hshape.2.2 hc
      have hw : SpellsClosed width "type "
          [.name (schema.body (.object interfaces fields)).keyword] := .of_marks rfl
      have hall := spells_typeText description hn hw (spells_announced himplements hand fun name hn => (hshape.1 name hn).1)
        (apart_announced (by decide) (by decide) _ _) hnone .nil hs ha
      simpa [printImplements, Schema.typeNode, TypeShape.marks, Schema.body] using hall
  | interface interfaces fields =>
      obtain ⟨contents, hc, hp⟩ := Except.bind_eq_ok hp
      cases hp
      obtain ⟨hs, ha⟩ : Spells width contents _ ∧ Apart contents.toList :=
        spells_printFields hshape.2.2 hc
      have hw : SpellsClosed width "interface "
          [.name (schema.body (.interface interfaces fields)).keyword] := .of_marks rfl
      have hall := spells_typeText description hn hw (spells_announced himplements hand fun name hn => (hshape.1 name hn).1)
        (apart_announced (by decide) (by decide) _ _) hnone .nil hs ha
      simpa [printImplements, Schema.typeNode, TypeShape.marks, Schema.body] using hall
  | union members =>
      cases hp
      have hw : SpellsClosed width "union " [.name (TypeBody.union members).keyword] :=
        .of_marks rfl
      have heq : SpellsClosed width " = " [.punctuator .equals] := .of_marks rfl
      have hall := spells_typeText description hn hw .empty .nil hnone .nil
        (spells_announced heq hor fun name hn => (hshape name hn).1) (apart_announced (by decide) (by decide) _ _)
      simpa [printImplements, Schema.typeNode, TypeShape.marks, Schema.body] using hall
  | enum values =>
      obtain ⟨contents, hc, hp⟩ := Except.bind_eq_ok hp
      cases hp
      obtain ⟨hs, ha⟩ : Spells width contents _ ∧ Apart contents.toList :=
        spells_printEnumValues hshape.2 hc
      have hw : SpellsClosed width "enum " [.name (schema.body (.enum values)).keyword] :=
        .of_marks rfl
      have hall := spells_typeText description hn hw .empty .nil hnone .nil hs ha
      simpa [printImplements, Schema.typeNode, TypeShape.marks, Schema.body] using hall
  | inputObject fields oneOf =>
      obtain ⟨contents, hc, hp⟩ := Except.bind_eq_ok hp
      cases hp
      obtain ⟨hs, ha⟩ : Spells width contents _ ∧ Apart contents.toList :=
        spells_printInputFields hshape.2 hc
      have hw : SpellsClosed width "input "
          [.name (schema.body (.inputObject fields oneOf)).keyword] := .of_marks rfl
      have hall := spells_typeText description hn hw .empty .nil (spells_oneOf oneOf)
        (apart_oneOf oneOf) hs ha
      simpa [printImplements, Schema.typeNode, TypeShape.marks, Schema.body] using hall

end Types

/-! ## Schemas and directives -/

/-- The root types of a schema, as they are bound. -/
def rootBindings (schema : Schema) : List RootBinding :=
  OperationKind.all.filterMap fun operation =>
    (schema.root? operation).map fun name => ⟨operation, name⟩

/-- Whether the schema definition is left out of the print of a schema. -/
def Schema.saysNothing (schema : Schema) : Bool :=
  schema.description.isNone && schema.hasConventionalRoots

def Schema.schemaDefinitions (schema : Schema) : List SchemaNode :=
  if schema.saysNothing then [] else [⟨describedAs schema.description, [], rootBindings schema⟩]

def Schema.directiveNode (schema : Schema) (d : DirectiveType) : DirectiveDefinition :=
  { description := describedAs d.description
    name := d.name
    arguments := schema.argumentDefinitions d.arguments
    repeatable := d.repeatable
    locations := d.locations }

/-- The types that a print of a schema shows. -/
def Schema.shownTypes (schema : Schema) : List NamedType :=
  schema.types.filter fun t => !isStandardType t.name

/-- The directives that a print of a schema shows. -/
def Schema.shownDirectives (schema : Schema) : List DirectiveType :=
  schema.directives.filter fun d => !isStandardDirective d.name

/-- The definitions that a schema is printed as. -/
def Schema.definitions (schema : Schema) : List Definition :=
  schema.schemaDefinitions.map .schema
    ++ schema.shownDirectives.map (fun d => .directive (schema.directiveNode d))
    ++ schema.shownTypes.map fun t => .type (schema.typeNode t)

section Schemas

variable {schema : Schema} {text : String}

theorem spells_printDirectiveType {d : DirectiveType} (hd : d.Legible schema.type?)
    (hp : printDirectiveType schema d = .ok text) :
    Spells width text (schema.directiveNode d).lexemes := by
  obtain ⟨arguments, ha, hp⟩ := Except.bind_eq_ok hp
  cases hp
  obtain ⟨hs, hapart⟩ : Spells width arguments _ ∧ Apart arguments.toList :=
    spells_printArguments toList_none hd.arguments ha
  have hword : SpellsClosed width "directive @" [.name "directive", .punctuator .atSign] :=
    .of_marks rfl
  have hon : IsSeparator width " on " [.name "on"] := ⟨.of_marks rfl, by decide, by decide⟩
  have hpipe : IsSeparator width " | " [.punctuator .pipe] := ⟨.of_marks rfl, by decide, by decide⟩
  have hdesc : SpellsClosed width (printDescribed d.description) _ :=
    spells_described d.description toList_none true
  have hname := (hdesc.append_closed hword).append (.name hd.name)
  have hrep := (hname.append hs hapart).append (spells_repeatable d.repeatable)
    (apart_repeatable d.repeatable)
  have hlocations := spells_names hpipe fun name hn => isName_location name (hd.locations name hn)
  have hall := (hrep.append_closed hon).append hlocations
  simp only [DirectiveDefinition.lexemes, List.append_assoc, List.cons_append,
    List.nil_append] at hall ⊢
  exact hall

theorem isPrinted_directiveNode {d : DirectiveType} (hd : d.Legible schema.type?) :
    IsPrinted (.directive (schema.directiveNode d)) := by
  have harguments := isInput_argumentDefinitions hd.arguments
  exact ⟨trivial, ⟨formed_describedAs, hd.name, fun d h => (harguments d h).1, hd.ne_nil,
    hd.locations⟩, marked_flatMap fun d h => (harguments d h).2⟩

theorem isName_rootBindings (h : schema.Legible) :
    ∀ binding ∈ rootBindings schema, IsName binding.type := by
  intro binding hb
  obtain ⟨operation, -, hb⟩ := List.mem_filterMap.mp hb
  obtain ⟨name, hn, rfl⟩ := Option.map_eq_some_iff.mp hb
  exact (h.roots operation name hn).1

theorem spells_rootBinding {binding : RootBinding} (h : IsName binding.type) :
    Spells width ("  " ++ binding.operation.keyword ++ ": " ++ binding.type) binding.lexemes := by
  have hm : SpellsClosed width "  " [] := spells_margin toList_two
  have hb : Spells width (binding.operation.keyword ++ ": " ++ binding.type) _ :=
    spells_labelled (isName_operation binding.operation) (.name h)
  simpa [RootBinding.lexemes, String.append_assoc] using hm.append hb

/-- Texts beside the definitions that they spell. -/
def SpelledBy (width : Nat) (texts : List String) (ds : List Definition) : Prop :=
  ∃ ps : List (String × Definition), ps.map Prod.fst = texts ∧ ps.map Prod.snd = ds
    ∧ ∀ p ∈ ps, Spells width p.1 p.2.lexemes

theorem SpelledBy.append {texts texts' : List String} {ds ds' : List Definition}
    (h : SpelledBy width texts ds) (h' : SpelledBy width texts' ds') :
    SpelledBy width (texts ++ texts') (ds ++ ds') := by
  obtain ⟨ps, rfl, rfl, hps⟩ := h
  obtain ⟨ps', rfl, rfl, hps'⟩ := h'
  exact ⟨ps ++ ps', List.map_append, List.map_append, List.forall_mem_append.mpr ⟨hps, hps'⟩⟩

theorem SpelledBy.mapM {α : Type} {print : α → Printed} {define : α → Definition} {items : List α}
    {texts : List String} (hp : items.mapM print = .ok texts)
    (h : ∀ item ∈ items, ∀ text, print item = .ok text → Spells width text (define item).lexemes) :
    SpelledBy width texts (items.map define) := by
  obtain ⟨ps, rfl, rfl, hps⟩ := Except.mapM_pairs hp
  refine ⟨ps.map fun p => (p.1, define p.2), by simp, by simp, fun p hm => ?_⟩
  obtain ⟨q, hq, rfl⟩ := List.mem_map.mp hm
  exact h q.2 (List.mem_map_of_mem hq) q.1 (hps q hq)

theorem spells_printSchemaDefinition (h : schema.Legible) :
    SpelledBy width (printSchemaDefinition schema) (schema.schemaDefinitions.map .schema) := by
  unfold printSchemaDefinition Schema.schemaDefinitions Schema.saysNothing
  split
  · exact ⟨[], rfl, rfl, by simp⟩
  · have hroots : (OperationKind.all.filterMap fun operation =>
        (schema.root? operation).map fun name => "  " ++ operation.keyword ++ ": " ++ name) =
        (rootBindings schema).map fun binding =>
          "  " ++ binding.operation.keyword ++ ": " ++ binding.type := by
      simp [rootBindings, List.map_filterMap, Option.map_map, Function.comp_def]
    have hword : SpellsClosed width "schema \x7b\n" [.name "schema", .punctuator .braceOpen] :=
      .of_marks rfl
    have hclose : IsSeparator width "\n\x7d" [.punctuator .braceClose] :=
      ⟨.of_marks rfl, by decide, by decide⟩
    have hdesc : SpellsClosed width (printDescribed schema.description) _ :=
      spells_described schema.description toList_none true
    have hlines := Spells.intercalate (isSeparator_newline : IsSeparator width _ _) fun binding hb =>
      spells_rootBinding (isName_rootBindings h binding hb)
    have hall := (((hdesc.append_closed hword).append hlines).append_closed hclose).spells
    refine ⟨[(_, .schema _)], rfl, rfl, fun p hp => ?_⟩
    obtain rfl := List.mem_singleton.mp hp
    dsimp only
    rw [hroots]
    simpa [Definition.lexemes, SchemaNode.lexemes, directiveLexemes, intercalate_nil] using hall

/-- A schema is printed as definitions that can be written. -/
theorem isPrinted_definitions (h : schema.Legible) : ∀ d ∈ schema.definitions, IsPrinted d := by
  intro d hd
  simp only [Schema.definitions, List.mem_append, List.mem_map] at hd
  rcases hd with (⟨node, hn, rfl⟩ | ⟨directive, hm, rfl⟩) | ⟨t, hm, rfl⟩
  · unfold Schema.schemaDefinitions at hn
    split at hn
    · cases hn
    · obtain rfl := List.mem_singleton.mp hn
      exact ⟨trivial, ⟨formed_describedAs, by simp, isName_rootBindings h⟩,
        by simp [Marked, Definition.allDirectives, Definition.directives]⟩
  · obtain ⟨hin, hs⟩ := List.mem_filter.mp hm
    exact isPrinted_directiveNode (h.directives directive hin (by simpa using hs))
  · obtain ⟨hin, hs⟩ := List.mem_filter.mp hm
    exact isPrinted_typeNode (h.types t hin (by simpa using hs))

/-- A printed schema spells its definitions. -/
theorem spells_printSchema (h : schema.Legible) (hp : printSchema schema = .ok text) :
    Spells width text (schema.definitions.flatMap Definition.lexemes) := by
  obtain ⟨directives, hd, hp⟩ := Except.bind_eq_ok hp
  obtain ⟨types, ht, hp⟩ := Except.bind_eq_ok hp
  cases hp
  have hdirectives : SpelledBy width directives
      (schema.shownDirectives.map fun d => .directive (schema.directiveNode d)) :=
    .mapM hd fun directive hm text hprint => by
      obtain ⟨hin, hs⟩ := List.mem_filter.mp hm
      exact spells_printDirectiveType (h.directives directive hin (by simpa using hs)) hprint
  have htypes : SpelledBy width types
      (schema.shownTypes.map fun t => .type (schema.typeNode t)) :=
    .mapM ht fun t hm text hprint => by
      obtain ⟨hin, hs⟩ := List.mem_filter.mp hm
      exact spells_printType (h.types t hin (by simpa using hs)) hprint
  obtain ⟨ps, hmap, hds, hps⟩ :=
    ((spells_printSchemaDefinition h).append hdirectives).append htypes
  have hblank : IsSeparator width "\n\n" [] := ⟨.of_marks rfl, by decide, by decide⟩
  rw [Schema.definitions, ← hds, ← hmap]
  exact spells_lines hblank hps

end Schemas

end SdlAssembly.Schemas
