import SdlAssembly.Number.Shortest
import SdlAssembly.Number.Written
import SdlAssembly.Text.Literal
import SdlAssembly.Yaml.Timestamp

/-!
# Data

The values that configurations hold. A mapping keeps its entries in order; two keys are the same if
they are the same text, bytes or time, or the same number, where truth counts as one.
-/

namespace SdlAssembly.Yaml

open Number Text

inductive Datum where
  | null
  | boolean (value : Bool)
  | int (value : Int)
  | float (value : Binary64)
  | text (text : String)
  /-- A text with halves of surrogate pairs, by its code points. -/
  | broken (codes : List Nat)
  | bytes (bytes : List UInt8)
  | time (time : Timestamp)
  | list (items : List Datum)
  | pair (first second : Datum)
  | set (items : List Datum)
  | map (entries : List (Datum × Datum))
  /-- The collection around this place. -/
  | enclosing (isMapping : Bool)
  deriving Repr, BEq, Inhabited

namespace Datum

/-! ## Keys -/

/-- The whole number that a value counts as. -/
def whole? : Datum → Option Int
  | boolean value => some value.toInt
  | int value => some value
  | float value => value.toInt?
  | _ => none

/-- Whether two values count as one key. -/
def sameKey (a b : Datum) : Bool :=
  match a, b with
  | text s, text t => s == t
  | bytes s, bytes t => s == t
  | broken s, broken t => s == t
  | time s, time t => s.sameTime t
  | null, null => true
  | _, _ =>
    match a.whole?, b.whole? with
    | some m, some n => m == n
    | none, none =>
      match a, b with
      | float x, float y => x != .nan && x == y
      | _, _ => false
    | _, _ => false

/-- Whether a value can be a key: collections cannot. -/
def isKey : Datum → Bool
  | list _ | set _ | map _ | enclosing _ => false
  | _ => true

/-- Sets the value of a key: in its place, with the key as it was, or at the end. -/
def put (entries : List (Datum × Datum)) (key value : Datum) : List (Datum × Datum) :=
  match entries with
  | [] => [(key, value)]
  | (k, v) :: rest => if k.sameKey key then (k, value) :: rest else (k, v) :: put rest key value

/-- The value of a text key. -/
def lookup? (entries : List (Datum × Datum)) (key : String) : Option Datum :=
  (entries.find? fun (k, _) => k.sameKey (.text key)).map Prod.snd

/-! ## Sameness -/

mutual

/-- Whether two values are the same: collections with the same parts, mappings in any order. -/
def same : Datum → Datum → Bool
  | .list xs, .list ys => sameItems xs ys
  | .map xs, .map ys => xs.length == ys.length && sameEntries xs ys
  | x, y => x.sameKey y

def sameItems : List Datum → List Datum → Bool
  | [], [] => true
  | x :: xs, y :: ys => same x y && sameItems xs ys
  | _, _ => false

def sameEntries : List (Datum × Datum) → List (Datum × Datum) → Bool
  | [], _ => true
  | (key, value) :: rest, ys =>
    (match ys.find? fun (k, _) => k.sameKey key with
      | some (_, found) => same value found
      | none => false) && sameEntries rest ys

end

/-! ## Display -/

/-- The name of the type of a value in messages. -/
def typeName : Datum → String
  | null => "NoneType"
  | boolean _ => "bool"
  | int _ => "int"
  | float _ => "float"
  | text _ | broken _ => "str"
  | bytes _ => "bytes"
  | time t => if t.time.isSome then "datetime" else "date"
  | list _ => "list"
  | pair _ _ => "tuple"
  | set _ => "set"
  | map _ => "dict"
  | enclosing isMapping => if isMapping then "dict" else "list"

/-- A byte between the given quotes. -/
def showByte (quote : Char) (byte : UInt8) : List Char :=
  let n := byte.toNat
  if 0x80 ≤ n then '\\' :: 'x' :: Literal.hex 2 n else Literal.encodeChar quote (Char.ofNat n)

def showBytes (content : List UInt8) : String :=
  let quote := Literal.quoteFor (content.map fun byte => Char.ofNat byte.toNat)
  String.ofList ('b' :: quote :: content.flatMap (showByte quote) ++ [quote])

mutual

/-- A value in a message. -/
def describe : Datum → String
  | .null => "None"
  | .boolean value => if value then "True" else "False"
  | .int value => toString value
  | .float value => value.text
  | .text t => Literal.quote t
  | .broken codes => Literal.quoteCodes codes
  | .bytes bs => showBytes bs
  | .time t => t.describe
  | .list items => "[" ++ ", ".intercalate (describeItems items) ++ "]"
  | .pair first second => "(" ++ first.describe ++ ", " ++ second.describe ++ ")"
  | .set items =>
    if items.isEmpty then "set()" else "\x7b" ++ ", ".intercalate (describeItems items) ++ "\x7d"
  | .map entries => "\x7b" ++ ", ".intercalate (describeEntries entries) ++ "\x7d"
  | .enclosing isMapping => if isMapping then "\x7b...\x7d" else "[...]"

def describeItems : List Datum → List String
  | [] => []
  | item :: rest => item.describe :: describeItems rest

def describeEntries : List (Datum × Datum) → List String
  | [] => []
  | (key, value) :: rest => (key.describe ++ ": " ++ value.describe) :: describeEntries rest

end

mutual

/-- Whether a value can be shown: its whole numbers are not too long. -/
def isShowable : Datum → Bool
  | .int value => value.natAbs < 10 ^ Written.mostDigits
  | .list items | .set items => areShowable items
  | .pair first second => first.isShowable && second.isShowable
  | .map entries => entriesShowable entries
  | _ => true

def areShowable : List Datum → Bool
  | [] => true
  | item :: rest => item.isShowable && areShowable rest

def entriesShowable : List (Datum × Datum) → Bool
  | [] => true
  | (key, value) :: rest => key.isShowable && value.isShowable && entriesShowable rest

end

/-- A value in a message, or its type if it cannot be shown. -/
def display (value : Datum) : String :=
  if value.isShowable then value.describe else "<unprintable " ++ value.typeName ++ " object>"

end Datum

end SdlAssembly.Yaml
