import SdlAssembly.Proofs.Tree.Definitions
import SdlAssembly.Schema.Literal

/-!
# Legible schemas

A schema is legible if all its names can be written, if references lead to types of the kinds that
may stand there, and if defaults fit their types. The standard types and directives are left out,
since they are not printed.
-/

namespace SdlAssembly.Schemas

open Grammar Text Lexer

/-- The text of a number without the line feed that may follow it. -/
def withoutLineFeed (text : String) : String :=
  if text.toList.getLast? == some '\n' then String.ofList text.toList.dropLast else text

/-- What the text of a number is read as: it is whole unless it has a point or an exponent. -/
def numberOf (text : String) : Value :=
  if text.toList.any fun c => c == '.' || c == 'e' || c == 'E' then .float text else .int text

mutual

/-- The literal that the print of a literal is read as, which may be another: a floating point number
without a fraction is printed as a whole number. -/
def spelling : Value → Value
  | .int text => .int (withoutLineFeed text)
  | .float text => numberOf text
  | .list items => .list (itemSpellings items)
  | .object fields => .object (fieldSpellings fields)
  | .variable name => .variable name
  | .string text block => .string text block
  | .boolean value => .boolean value
  | .null => .null
  | .enum name => .enum name

def itemSpellings : List Value → List Value
  | [] => []
  | item :: rest => spelling item :: itemSpellings rest

def fieldSpellings : List (String × Value) → List (String × Value)
  | [] => []
  | (key, value) :: rest => (key, spelling value) :: fieldSpellings rest

end

theorem itemSpellings_eq (items : List Value) : itemSpellings items = items.map spelling := by
  induction items with
  | nil => rfl
  | cons item rest ih => rw [itemSpellings, ih, List.map_cons]

theorem fieldSpellings_eq (fields : List (String × Value)) :
    fieldSpellings fields = fields.map fun f => (f.1, spelling f.2) := by
  induction fields with
  | nil => rfl
  | cons field rest ih =>
      obtain ⟨key, value⟩ := field
      rw [fieldSpellings, ih, List.map_cons]

/-- A literal is printed as one that can be read. -/
structure Spelt (literal : Value) : Prop where
  proper : (spelling literal).Proper true
  spells : ∀ width, Spells width literal.print (spelling literal).lexemes

/-- The literal of a constant under a type can be read, if it has one. -/
def Writes (type? : String → Option NamedType) (value : Constant) (type : TypeRef) : Prop :=
  ∀ literal, writeConstant type? value type = .ok (some literal) → Spelt literal

/-! ## Constants -/

/-- The entries of an object whose fields have values, in the order of its type. -/
def givenFields {α : Type} (fields : List InputField) (value? : InputField → Option α) :
    List (String × α) :=
  fields.filterMap fun f => (value? f).map fun a => (f.name, a)

theorem givenFields_cons {α : Type} (f : InputField) (fields : List InputField)
    (value? : InputField → Option α) : givenFields (f :: fields) value? =
      match value? f with
      | none => givenFields fields value?
      | some a => (f.name, a) :: givenFields fields value? := by
  rw [givenFields, List.filterMap_cons]
  cases value? f <;> rfl

/-- A constant under a type is null, a list of constants that fit, what a scalar or an enum made of
a literal, or an object that lacks no field that must be given. Input objects occur under readable
names only. -/
inductive Fits (type? : String → Option NamedType) (readable : String → Prop) :
    Constant → TypeRef → Prop
  | null {type : TypeRef} (nullable : type.isNonNull = false) : Fits type? readable .null type
  | list {items : List Constant} {type item : TypeRef} (list : type.nullable = .list item)
      (fit : ∀ c ∈ items, Fits type? readable c item) : Fits type? readable (.list items) type
  | leaf {t : NamedType} {literal : Value} {c : Constant} {type : TypeRef}
      (known : type? type.core = some t) (isLeaf : t.isLeaf) (proper : literal.Proper true)
      (read : leafLiteral t literal = some c) (notNull : c ≠ .null)
      (notList : ∀ item, type.nullable ≠ .list item) : Fits type? readable c type
  | object {t : NamedType} {fields : List InputField} {oneOf : Bool}
      {value? : InputField → Option Constant} {type : TypeRef}
      (known : type? type.core = some t) (shape : t.shape = .inputObject fields oneOf)
      (isReadable : readable type.core) (names : ∀ f ∈ fields, IsName f.name)
      (nodup : (fields.map InputField.name).Nodup)
      (fit : ∀ f ∈ fields, ∀ c, value? f = some c → Fits type? readable c f.type)
      (absent : ∀ f ∈ fields, value? f = none → f.default = none ∧ f.type.isNonNull = false)
      (single : oneOf → singleField (givenFields fields value?))
      (notList : ∀ item, type.nullable ≠ .list item) :
      Fits type? readable (.object (givenFields fields value?)) type

/-- Input objects in an order in which the defaults of each have only earlier ones in them. -/
def Ranked (type? : String → Option NamedType) : Prop :=
  ∃ rank : String → Nat, ∀ name t, type? name = some t → ∀ f ∈ t.inputFields, ∀ c ∈ f.default,
    Fits type? (fun other => rank other < rank name) c f.type

/-! ## Members -/

/-- A name stands for a type that passes a test. -/
def Leads (type? : String → Option NamedType) (test : NamedType → Bool) (name : String) : Prop :=
  ∃ t, type? name = some t ∧ test t

section Members

variable (type? : String → Option NamedType)

structure InputField.Legible (field : InputField) : Prop where
  name : IsName field.name
  type : field.type.Proper
  input : Leads type? NamedType.isInput field.type.core
  default : ∀ value ∈ field.default, Fits type? (fun _ => True) value field.type

structure Field.Legible (field : Field) : Prop where
  name : IsName field.name
  arguments : ∀ argument ∈ field.arguments, argument.Legible type?
  nodup : (field.arguments.map InputField.name).Nodup
  type : field.type.Proper
  output : Leads type? NamedType.isOutput field.type.core

def EnumValue.Legible (value : EnumValue) : Prop := IsName value.name ∧ value.name ∉ Value.reserved

def TypeShape.Legible : TypeShape → Prop
  | .scalar _ => True
  | .object interfaces fields | .interface interfaces fields =>
    (∀ name ∈ interfaces, IsName name ∧ Leads type? NamedType.isInterface name)
      ∧ (fields.map Field.name).Nodup ∧ ∀ field ∈ fields, field.Legible type?
  | .union members => ∀ name ∈ members, IsName name ∧ Leads type? NamedType.isObject name
  | .enum values => (values.map EnumValue.name).Nodup ∧ ∀ value ∈ values, value.Legible
  | .inputObject fields _ =>
    (fields.map InputField.name).Nodup ∧ ∀ field ∈ fields, field.Legible type?

structure NamedType.Legible (t : NamedType) : Prop where
  name : IsName t.name
  shape : t.shape.Legible type?

structure DirectiveType.Legible (d : DirectiveType) : Prop where
  name : IsName d.name
  arguments : ∀ argument ∈ d.arguments, argument.Legible type?
  nodup : (d.arguments.map InputField.name).Nodup
  ne_nil : d.locations ≠ []
  locations : ∀ location ∈ d.locations, location ∈ Parser.directiveLocations

end Members

structure Schema.Legible (s : Schema) : Prop where
  types : ∀ t ∈ s.types, isStandardType t.name = false → t.Legible s.type?
  directives : ∀ d ∈ s.directives, isStandardDirective d.name = false → d.Legible s.type?
  roots : ∀ operation, ∀ name ∈ s.root? operation, IsName name ∧ (s.type? name).isSome
  ranked : Ranked s.type?

end SdlAssembly.Schemas
