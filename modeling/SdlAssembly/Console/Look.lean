import SdlAssembly.Console.Look.Table
import SdlAssembly.Number.Written
import SdlAssembly.Text.Case
import SdlAssembly.Text.Split

/-!
# Looks

How text looks on a console: its settings, its colours, and where it leads. Looks that are written
in different ways have one name, by which a closing tag finds the tag that it closes.
-/

namespace SdlAssembly.Console

open Number.Written Text

structure Look where
  /-- The settings that are told, and whether each is on; the last of two counts. -/
  settings : List (String × Bool) := []
  colour : Option String := none
  ground : Option String := none
  link : Option String := none
  deriving Repr, BEq, DecidableEq

/-- Why a text tells no look. -/
inductive LookFault where
  | unknown
  /-- A part of a colour is no number. -/
  | notNumber (fault : WholeFault)
  deriving Repr, BEq, DecidableEq

namespace Look

/-! ## Colours -/

def isHexDigit (c : Char) : Bool := c.isDigit || ('a' ≤ c && c ≤ 'f')

/-- What stands in brackets after a name. -/
def inBrackets? (name : String) (text : List Char) : Option (List Char) :=
  let opening := name.toList ++ ['(']
  if opening.isPrefixOf text && text.getLast? == some ')' then
    some ((text.drop opening.length).dropLast)
  else none

/-- The parts of a text between commas. -/
def commaParts (text : List Char) : List (List Char) := text.splitOn ','

/-- Whether a colour may be told by its shares of red, green and blue. -/
def checkShares (text : List Char) : Except LookFault Unit := do
  let isPart (c : Char) : Bool := c == ',' || (decimalValue? c).isSome
  if text.isEmpty || !text.all isPart then throw .unknown
  let parts := commaParts text
  if parts.length ≠ 3 then throw .unknown
  let shares ← parts.mapM fun part => (whole 10 part).mapError .notNumber
  if shares.any (255 < ·) then throw .unknown

/-- Whether a word in lower case is a colour. -/
def checkColour (word : String) : Except LookFault Unit :=
  let text := word.toList
  if word == "default" || colourNames.any fun line => (split ' ' line).contains word then .ok ()
  else if text.head? == some '#' && text.length = 7 && (text.drop 1).all isHexDigit then .ok ()
  else
    match inBrackets? "color" text, inBrackets? "rgb" text with
    | some digits, _ =>
      if !digits.isEmpty && digits.length ≤ 3 && digits.all Char.isDigit
          && Nat.ofDigitChars 10 digits 0 ≤ 255 then .ok ()
      else .error .unknown
    | none, some shares => checkShares shares
    | none, none => .error .unknown

/-! ## Settings -/

/-- The settings in the order in which they are told, with their short names. -/
def settingNames : List (String × List String) :=
  [("bold", ["b"]), ("dim", ["d"]), ("italic", ["i"]), ("underline", ["u"]), ("blink", []),
    ("blink2", []), ("reverse", ["r"]), ("conceal", ["c"]), ("strike", ["s"]),
    ("underline2", ["uu"]), ("frame", []), ("encircle", []), ("overline", ["o"])]

def setting? (word : String) : Option String :=
  (settingNames.find? fun (name, short) => name == word || short.contains word).map Prod.fst

/-! ## Reading -/

def lower (word : String) : String := String.ofList (Case.lower word.toList)

/-- The look of words that follow those of a look. -/
def add (look : Look) : List String → Except LookFault Look
  | [] => .ok look
  | word :: rest =>
    match lower word, rest with
    | "on", colour :: rest => do
      checkColour (lower colour)
      add { look with ground := some (lower colour) } rest
    | "not", name :: rest =>
      match setting? name with
      | some setting => add { look with settings := (setting, false) :: look.settings } rest
      | none => .error .unknown
    | "link", target :: rest => add { look with link := some target } rest
    | "on", [] | "not", [] | "link", [] => .error .unknown
    | name, rest =>
      match setting? name with
      | some setting => add { look with settings := (setting, true) :: look.settings } rest
      | none => do
        checkColour name
        add { look with colour := some name } rest

/-- The words of a text. -/
def words (cs : List Char) : List String :=
  (split ' ' (String.ofList (cs.map fun c => if isSpace c then ' ' else c))).filter (· != "")

/-- The look that a text tells. -/
def ofText (text : List Char) : Except LookFault Look :=
  if String.ofList (trim text) == "none" then .ok {} else add {} (words text)

/-! ## Writing -/

/-- The words of a look. -/
def toWords (look : Look) : List String :=
  let settings := settingNames.filterMap fun (name, _) =>
    (look.settings.lookup name).map fun isOn => if isOn then name else "not " ++ name
  let ground := match look.ground with
    | some colour => ["on", colour]
    | none => []
  let link := match look.link with
    | some target => ["link", target]
    | none => []
  settings ++ look.colour.toList ++ ground ++ link

def text (look : Look) : String :=
  match look.toWords with
  | [] => "none"
  | words => " ".intercalate words

/-- One name for all ways to write a look. What tells none is its own name, in lower case. -/
def normalName (name : List Char) : Except WholeFault String :=
  match ofText name with
  | .ok look => .ok look.text
  | .error (.notNumber fault) => .error fault
  | .error .unknown => .ok (String.ofList (Case.lower (trim name)))

end Look

end SdlAssembly.Console
