import SdlAssembly.Number.Written
import SdlAssembly.Schema.Type
import SdlAssembly.Schema.Introspection
import SdlAssembly.Grammar.Printer.Value
import SdlAssembly.Text.Excerpt

/-!
# Literals and constants

A literal is read against a type and gives a constant, or none if it does not fit; a constant is
written back as a literal of its type. Reading needs the fields of input objects, and writing
refuses a collection where a custom scalar stands.
-/

namespace SdlAssembly.Schemas

open Grammar Number

/-! ## Reading -/

/-- The number written by digits with an optional sign. -/
def readInt (text : String) : Int :=
  match text.toList with
  | '-' :: digits => -(Int.ofNat (Nat.ofDigitChars 10 digits 0))
  | digits => Int.ofNat (Nat.ofDigitChars 10 digits 0)

/-- The floating point number nearest to a number literal. -/
def readFloat (text : String) : Binary64 :=
  let cs := text.toList
  let negative := cs.head? == some '-'
  let cs := if negative then cs.drop 1 else cs
  let isExponentMark (c : Char) := c == 'e' || c == 'E'
  let mantissa := cs.takeWhile fun c => !isExponentMark c
  let exponent := (cs.dropWhile fun c => !isExponentMark c).drop 1
  let exponent := if exponent.head? == some '+' then exponent.drop 1 else exponent
  let whole := mantissa.takeWhile (· != '.')
  let fraction := (mantissa.dropWhile (· != '.')).drop 1
  let power := if exponent.isEmpty then 0 else readInt (String.ofList exponent)
  Binary64.ofDecimal negative (Nat.ofDigitChars 10 (whole ++ fraction) 0) (power - fraction.length)

/-- The whole number of a literal, unless it is too long. -/
def boundedInt? (text : String) : Option Int :=
  if (text.toList.filter Char.isDigit).length ≤ Written.mostDigits then some (readInt text)
  else none

/-- Sets a key in its place, or at the end if it is new. -/
def putField : List (String × Constant) → String → Constant → List (String × Constant)
  | [], key, value => [(key, value)]
  | (k, v) :: rest, key, value =>
    if k == key then (k, value) :: rest else (k, v) :: putField rest key value

mutual

/-- The constant of a literal under no type. -/
def untyped : Value → Option Constant
  | .variable _ => none
  | .int text => some ((boundedInt? text).elim (.float .nan) .int)
  | .float text => some (.float (readFloat text))
  | .string text _ | .enum text => some (.string text)
  | .boolean value => some (.boolean value)
  | .null => some .null
  | .list items => (untypedItems items).map .list
  | .object fields => (untypedFields fields).map fun read =>
      .object (read.foldl (fun kept (key, value) => putField kept key value) [])

def untypedItems : List Value → Option (List Constant)
  | [] => some []
  | item :: rest => do return (← untyped item) :: (← untypedItems rest)

def untypedFields : List (String × Value) → Option (List (String × Constant))
  | [] => some []
  | (key, value) :: rest => do return (key, ← untyped value) :: (← untypedFields rest)

end

def leastInt : Int := -2147483648

def greatestInt : Int := 2147483647

/-- The constant of a literal under a built-in scalar. -/
def builtinLiteral (scalar : String) (literal : Value) : Option Constant :=
  match scalar, literal with
  | "Int", .int text =>
    (boundedInt? text).bind fun n =>
      if leastInt ≤ n ∧ n ≤ greatestInt then some (.int n) else none
  | "Float", .int text | "Float", .float text => some (.float (readFloat text))
  | "String", .string text _ => some (.string text)
  | "Boolean", .boolean value => some (.boolean value)
  | "ID", .string text _ | "ID", .int text => some (.string text)
  | _, _ => none

/-- The constant of a literal under a scalar or an enum. -/
def leafLiteral (type : NamedType) (literal : Value) : Option Constant :=
  match type.shape with
  | .enum values =>
    match literal with
    | .enum name => if values.any (·.name == name) then some (.string name) else none
    | _ => none
  | _ => if isBuiltinScalar type.name then builtinLiteral type.name literal else untyped literal

/-- How a named type is read: as a leaf, or field by field, with exactly one field if `oneOf`. The
fields are worked out when an object literal asks for them. -/
inductive InputShape (ε : Type) where
  | leaf (type : NamedType)
  | object (fields : Unit → Except ε (List InputField)) (oneOf : Bool)

/-- The values of the fields of an input object, in the order of its type; a field that is not
given takes its default. -/
def objectFields {ε : Type} (value? : InputField → Except ε (Option (Option Constant))) :
    List InputField → Except ε (Option (List (String × Constant)))
  | [] => .ok (some [])
  | field :: rest => do
    match ← value? field with
    | some none => return none
    | some (some value) =>
      return (← objectFields value? rest).map ((field.name, value) :: ·)
    | none =>
      match field.default with
      | some value => return (← objectFields value? rest).map ((field.name, value) :: ·)
      | none => if field.type.isNonNull then return none else objectFields value? rest

/-- Whether the fields suit an input object of which exactly one field must be given. -/
def singleField (fields : List (String × Constant)) : Bool :=
  match fields with
  | [(_, .null)] => false
  | [_] => true
  | _ => false

/-- A constant inside a number of lists. -/
def inLists : Nat → Constant → Constant
  | 0, value => value
  | depth + 1, value => inLists depth (.list [value])

mutual

/-- The constant of a literal under a type; a value that is no list stands for lists of one. The
named types are looked up by `shape`, which may fail. -/
def readLiteral {ε : Type} (shape : String → Except ε (InputShape ε)) :
    Value → TypeRef → Except ε (Option Constant)
  | .null, type => .ok (if type.isNonNull then none else some .null)
  | .list items, type => do
    match type.nullable with
    | .list item => return (← readItems shape items item).map .list
    | type =>
      match ← shape type.core with
      | .leaf t => return leafLiteral t (.list items)
      | .object _ _ => return none
  | .object fields, type => do
    match ← shape type.core with
    | .leaf t => return (leafLiteral t (.object fields)).map (inLists type.listDepth)
    | .object expected oneOf =>
      match ← objectFields (fun field => readField shape fields field.name field.type)
          (← expected ()) with
      | none => return none
      | some read =>
        if oneOf && !singleField read then return none
        else return some (inLists type.listDepth (.object read))
  | literal, type => do
    match ← shape type.core with
    | .leaf t => return (leafLiteral t literal).map (inLists type.listDepth)
    | .object _ _ => return none

def readItems {ε : Type} (shape : String → Except ε (InputShape ε)) :
    List Value → TypeRef → Except ε (Option (List Constant))
  | [], _ => .ok (some [])
  | item :: rest, type => do
    match ← readLiteral shape item type with
    | none => return none
    | some value => return (← readItems shape rest type).map (value :: ·)

/-- The last field of a name in an object literal, under a type. -/
def readField {ε : Type} (shape : String → Except ε (InputShape ε)) :
    List (String × Value) → String → TypeRef → Except ε (Option (Option Constant))
  | [], _, _ => .ok none
  | (key, literal) :: rest, name, type => do
    match ← readField shape rest name type with
    | some found => return some found
    | none => if key == name then return some (← readLiteral shape literal type) else return none

end

/-! ## Writing -/

/-- A constant that no literal can write. -/
inductive Unwritable where
  | collection (value : Constant)
  | infiniteNumber (value : Constant)
  deriving Repr, BEq

def Unwritable.message : Unwritable → String
  | collection value => "Cannot convert value to AST: " ++ value.describe ++ "."
  | infiniteNumber value => "Float cannot represent non numeric value: " ++ value.describe

/-- Whether a text is a whole number in its usual form; one line feed may follow. -/
def looksWhole (text : String) : Bool :=
  let cs := text.toList
  let cs := if cs.getLast? == some '\n' then cs.dropLast else cs
  let digits := if cs.head? == some '-' then cs.drop 1 else cs
  match digits with
  | [] => false
  | ['0'] => true
  | first :: _ => first != '0' && digits.all fun c => '0' ≤ c && c ≤ '9'

/-- The text of a finite number; a whole number has no point. -/
def floatLiteral (value : Binary64) : Value :=
  let text := value.text
  .float (if text.endsWith ".0" then String.ofList (text.toList.take (text.length - 2)) else text)

/-- The literal of a constant of a scalar or enum. -/
def writeLeaf (type : NamedType) : Constant → Except Unwritable Value
  | .null => .ok .null
  | .boolean value => .ok (.boolean value)
  | .int value => .ok (.int (toString value))
  | .float value =>
    if value.isFinite then .ok (floatLiteral value)
    else if type.name == "Float" then .error (.infiniteNumber (.float value))
    else .error (.collection (.float value))
  | .string text =>
    .ok (if type.isEnum then .enum text
      else if type.name == "ID" && looksWhole text then .int text
      else .string text false)
  | value@(.list _) | value@(.object _) => .error (.collection value)

/-- The object literal of the fields of a type that have a value and a literal, in the order of the
type. -/
def writtenFields (write? : InputField → Except Unwritable (Option Value)) :
    List InputField → Except Unwritable (List (String × Value))
  | [] => .ok []
  | field :: rest => do
    match ← write? field with
    | some value => return (field.name, value) :: (← writtenFields write? rest)
    | none => writtenFields write? rest

mutual

/-- The literal of a constant under a type of a schema, if it has one. -/
def writeConstant (type? : String → Option NamedType) :
    Constant → TypeRef → Except Unwritable (Option Value)
  | .null, type => .ok (if type.isNonNull then none else some .null)
  | .list items, type =>
    match type.nullable with
    | .list item => (writeItems type? items item).map fun written => some (.list written)
    | type =>
      match type? type.core with
      | none => .ok none
      | some t =>
        if t.isInputObject then .ok none else (writeLeaf t (.list items)).map some
  | .object given, type =>
    match type? type.core with
    | none => .ok none
    | some t =>
      match t.shape with
      | .inputObject fields _ => do
        let written ←
          writtenFields (fun field => writeField type? given field.name field.type) fields
        return some (.object written)
      | _ => (writeLeaf t (.object given)).map some
  | value, type =>
    match type? type.core with
    | none => .ok none
    | some t => if t.isInputObject then .ok none else (writeLeaf t value).map some

def writeItems (type? : String → Option NamedType) :
    List Constant → TypeRef → Except Unwritable (List Value)
  | [], _ => .ok []
  | item :: rest, type => do
    match ← writeConstant type? item type with
    | some value => return value :: (← writeItems type? rest type)
    | none => writeItems type? rest type

/-- The literal of the field of a name, if it has a value and a literal. -/
def writeField (type? : String → Option NamedType) :
    List (String × Constant) → String → TypeRef → Except Unwritable (Option Value)
  | [], _, _ => .ok none
  | (key, value) :: rest, name, type =>
    if key == name then writeConstant type? value type else writeField type? rest name type

end

end SdlAssembly.Schemas
