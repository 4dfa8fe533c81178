import SdlAssembly.Number.Shortest
import SdlAssembly.Text.Literal

/-!
# Constants

The values that defaults have once they are read against their type. Enum values are strings here,
since the type says how to write them.
-/

namespace SdlAssembly.Schemas

open Number Text

inductive Constant where
  | null
  | boolean (value : Bool)
  | int (value : Int)
  | float (value : Binary64)
  | string (text : String)
  | list (items : List Constant)
  | object (fields : List (String × Constant))
  deriving Repr, BEq, Inhabited

namespace Constant

/-! ## Display -/

/-- Longer texts are cut in the middle. -/
def longestShown : Nat := 240

/-- Longer lists are cut in the middle. -/
def mostShown : Nat := 10

/-- Collections inside this many others are not shown. -/
def deepestShown : Nat := 2

private def cutText (text : String) : String :=
  let cs := text.toList
  if cs.length > longestShown then
    let before := (longestShown - 3) / 2
    let after := longestShown - 3 - before
    String.ofList (cs.take before) ++ "..." ++ String.ofList (cs.drop (cs.length - after))
  else text

private def cutList (shown : List String) : List String :=
  if shown.length > mostShown then
    let before := mostShown / 2
    shown.take before ++ ["..."] ++ shown.drop (shown.length - (before - 1))
  else shown

mutual

/-- A constant in a message, inside a number of other collections. -/
def shown (depth : Nat) : Constant → String
  | .null => "None"
  | .boolean true => "True"
  | .boolean false => "False"
  | .int value => cutText (toString value)
  | .float value => value.text
  | .string text => cutText (Literal.quote text)
  | .list items =>
    if items.isEmpty then "[]"
    else if depth < deepestShown then
      "[" ++ ", ".intercalate (cutList (showItems (depth + 1) items)) ++ "]"
    else "[...]"
  | .object fields =>
    if fields.isEmpty then "\x7b\x7d"
    else if depth < deepestShown then
      "\x7b" ++ ", ".intercalate (cutList (showFields (depth + 1) fields)) ++ "\x7d"
    else "\x7b...\x7d"

def showItems (depth : Nat) : List Constant → List String
  | [] => []
  | item :: rest => item.shown depth :: showItems depth rest

def showFields (depth : Nat) : List (String × Constant) → List String
  | [] => []
  | (key, value) :: rest =>
    (cutText (Literal.quote key) ++ ": " ++ value.shown depth) :: showFields depth rest

end

/-- A constant in a message. -/
def describe (value : Constant) : String := value.shown 0

end Constant

end SdlAssembly.Schemas
