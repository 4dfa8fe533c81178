import SdlAssembly.Number.Shortest
import SdlAssembly.Text.Literal

/-!
# Reports as text

The values that reports are made of and their text: an item a line, each level indented by two more
blanks. Fields keep their order. A text for files has ASCII characters only and escapes the others
by their UTF-16 units; a text for people keeps them.
-/

namespace SdlAssembly.Report

open Number Text

inductive Json where
  | null
  | boolean (value : Bool)
  | int (value : Int)
  | float (value : Binary64)
  | string (text : String)
  | list (items : List Json)
  | object (fields : List (String × Json))
  deriving Repr, BEq, Inhabited

namespace Json

def optional : Option String → Json
  | some text => .string text
  | none => .null

/-! ## Strings -/

/-- The UTF-16 units of a character. -/
def units (c : Char) : List Nat :=
  let n := c.toNat
  if n < 0x10000 then [n] else [0xD800 + (n - 0x10000) / 0x400, 0xDC00 + (n - 0x10000) % 0x400]

def escapeUnit (unit : Nat) : List Char := '\\' :: 'u' :: Literal.hex 4 unit

/-- The written form of one character. -/
def encodeChar (ascii : Bool) (c : Char) : List Char :=
  let n := c.toNat
  if c = '"' then ['\\', '"']
  else if c = '\\' then ['\\', '\\']
  else if c = '\n' then ['\\', 'n']
  else if c = '\r' then ['\\', 'r']
  else if c = '\t' then ['\\', 't']
  else if n = 8 then ['\\', 'b']
  else if n = 12 then ['\\', 'f']
  else if n < 0x20 then escapeUnit n
  else if ascii && 0x80 ≤ n then (units c).flatMap escapeUnit
  else [c]

/-- A string in its quotes. -/
def quote (ascii : Bool) (text : String) : List Char :=
  '"' :: text.toList.flatMap (encodeChar ascii) ++ ['"']

/-! ## Layout -/

def newline (depth : Nat) : List Char := '\n' :: List.replicate (2 * depth) ' '

/-- Items between two brackets, each on a line of its own. -/
def bracket (opening closing : Char) (depth : Nat) : List (List Char) → List Char
  | [] => [opening, closing]
  | first :: rest =>
    opening :: newline (depth + 1) ++ first
      ++ rest.flatMap (fun item => ',' :: newline (depth + 1) ++ item)
      ++ newline depth ++ [closing]

def floatText : Binary64 → String
  | .nan => "NaN"
  | .infinite negative => if negative then "-Infinity" else "Infinity"
  | value => value.text

mutual

/-- The text of a value inside a number of others. -/
def render (ascii : Bool) (depth : Nat) : Json → List Char
  | .null => "null".toList
  | .boolean value => if value then "true".toList else "false".toList
  | .int value => (toString value).toList
  | .float value => (floatText value).toList
  | .string text => quote ascii text
  | .list items => bracket '[' ']' depth (renderItems ascii (depth + 1) items)
  | .object fields => bracket '\x7b' '\x7d' depth (renderFields ascii (depth + 1) fields)

def renderItems (ascii : Bool) (depth : Nat) : List Json → List (List Char)
  | [] => []
  | item :: rest => item.render ascii depth :: renderItems ascii depth rest

def renderFields (ascii : Bool) (depth : Nat) : List (String × Json) → List (List Char)
  | [] => []
  | (name, value) :: rest =>
    (quote ascii name ++ ':' :: ' ' :: value.render ascii depth)
      :: renderFields ascii depth rest

end

/-- The text of a value for a file. -/
def fileText (value : Json) : String := String.ofList (value.render true 0)

/-- The text of a value for people. -/
def displayText (value : Json) : String := String.ofList (value.render false 0)

end Json

end SdlAssembly.Report
