import SdlAssembly.Yaml.ScalarText
import SdlAssembly.Yaml.Timestamp

/-!
# Tags of nodes

A tag says what kind of value a node is. A plain scalar without a tag takes the tag that its text
has the form of.
-/

namespace SdlAssembly.Yaml

/-! ## Tags -/

inductive Tag where
  | null | boolean | int | float | binary | timestamp
  | orderedMap | pairs | set | string | sequence | mapping
  /-- The key that takes over the entries of another mapping. -/
  | merge
  /-- The key of the value that a mapping stands for. -/
  | value
  | other (name : String)
  deriving Repr, BEq, DecidableEq

def tagSpace : String := "tag:yaml.org,2002:"

def Tag.all : List (String × Tag) :=
  [("null", .null), ("bool", .boolean), ("int", .int), ("float", .float), ("binary", .binary),
    ("timestamp", .timestamp), ("omap", .orderedMap), ("pairs", .pairs), ("set", .set),
    ("str", .string), ("seq", .sequence), ("map", .mapping), ("merge", .merge),
    ("value", .value)]

/-- The tag of a full name. -/
def Tag.ofName (name : String) : Tag :=
  match Tag.all.find? fun (short, _) => tagSpace ++ short == name with
  | some (_, tag) => tag
  | none => .other name

/-! ## Forms of plain scalars -/

def trueWords : List String :=
  ["yes", "Yes", "YES", "true", "True", "TRUE", "on", "On", "ON"]

def falseWords : List String :=
  ["no", "No", "NO", "false", "False", "FALSE", "off", "Off", "OFF"]

def nullWords : List String := ["", "~", "null", "Null", "NULL"]

/-- A text without the sign in front of it. -/
def unsigned (text : List Char) : List Char :=
  match text with
  | '+' :: rest | '-' :: rest => rest
  | _ => text

def isDigitOrLine (c : Char) : Bool := c.isDigit || c == '_'

/-- Digits and underscores, a digit first. -/
def isDigits (text : List Char) : Bool :=
  match text with
  | first :: rest => first.isDigit && rest.all isDigitOrLine
  | [] => false

/-- A part of a number in base sixty after the first. -/
def isSixtieth : List Char → Bool
  | [d] => d.isDigit
  | [t, d] => '0' ≤ t && t ≤ '5' && d.isDigit
  | _ => false

/-- The parts between colons. -/
def colonParts : List Char → List (List Char)
  | [] => [[]]
  | ':' :: rest => [] :: colonParts rest
  | c :: rest =>
    match colonParts rest with
    | [] => [[c]]
    | part :: others => (c :: part) :: others

/-- An exponent, which must have a sign, or nothing. -/
def isExponent : List Char → Bool
  | [] => true
  | e :: sign :: digits =>
    (e == 'e' || e == 'E') && (sign == '+' || sign == '-') && !digits.isEmpty
      && digits.all Char.isDigit
  | _ => false

def isInt (text : List Char) : Bool :=
  let body := unsigned text
  match body with
  | ['0'] => true
  | '0' :: 'b' :: digits =>
    !digits.isEmpty && digits.all fun c => c == '0' || c == '1' || c == '_'
  | '0' :: 'x' :: digits =>
    !digits.isEmpty && digits.all fun c =>
      isDigitOrLine c || ('a' ≤ c && c ≤ 'f') || ('A' ≤ c && c ≤ 'F')
  | '0' :: digits => digits.all fun c => ('0' ≤ c && c ≤ '7') || c == '_'
  | _ =>
    match colonParts body with
    | first :: others => isDigits first && others.all isSixtieth
    | [] => false

def isFloat (text : List Char) : Bool :=
  let body := unsigned text
  if [".inf", ".Inf", ".INF"].contains (String.ofList body) then true
  else if [".nan", ".NaN", ".NAN"].contains (String.ofList text) then true
  else
    let whole := body.takeWhile (· != '.')
    match body.drop whole.length with
    | '.' :: rest =>
      let exponent := rest.dropWhile isDigitOrLine
      if whole.isEmpty then
        body.length == text.length && isDigits (rest.takeWhile isDigitOrLine) && isExponent exponent
      else
        match colonParts whole with
        | [_] => isDigits whole && isExponent exponent
        | first :: others => isDigits first && others.all isSixtieth && exponent.isEmpty
        | [] => false
    | _ => false

/-- The marks that no plain scalar starts with; one alone has the form of a tag without use. -/
def formMarks : List String := ["!", "&", "*"]

/-- A text without a line end behind it. -/
def dropLineEnd (text : List Char) : List Char :=
  if text.getLast? == some '\n' && text.length != 1 then text.dropLast else text

/-- The tag of a text by its form; a line end behind it makes no difference. -/
def Tag.ofForm (text : List Char) : Tag :=
  let cs := dropLineEnd text
  let word := String.ofList cs
  if trueWords.contains word || falseWords.contains word then .boolean
  else if isFloat cs then .float
  else if isInt cs then .int
  else if word == "<<" then .merge
  else if nullWords.contains word then .null
  else if Timestamp.isWritten cs then .timestamp
  else if word == "=" then .value
  else if formMarks.contains word then .other (tagSpace ++ "yaml")
  else .string

/-- The tag of a plain scalar. -/
def Tag.ofPlain : ScalarText → Tag
  | .whole text => .ofForm text.toList
  | .broken _ => .string

/-- Whether a tag asks for a collection, whose parts are worked out later. -/
def Tag.isCollection : Tag → Bool
  | .orderedMap | .pairs | .set | .sequence | .mapping => true
  | _ => false

/-- Whether a tag asks for the value of a text. -/
def Tag.isScalar : Tag → Bool
  | .null | .boolean | .int | .float | .binary | .timestamp | .string => true
  | _ => false

end SdlAssembly.Yaml
