import SdlAssembly.Console.Emoji.Table
import SdlAssembly.Text.Case
import SdlAssembly.Text.Space
import SdlAssembly.Text.Split

/-!
# Emoji by name

A message writes an emoji as its name between colons, where `-emoji` or `-text` after the name asks
for one of its forms. What names no emoji stays as it is written.
-/

namespace SdlAssembly.Console.Emoji

open Text

/-! ## Names -/

/-- What follows a name among words that are names and emoji in turn. -/
def after? (name : String) : List String → Option String
  | found :: emoji :: rest => if found == name then some emoji else after? name rest
  | _ => none

def lookup? (table : List String) (name : String) : Option String :=
  table.findSome? fun line => after? name (split ' ' line)

/-- The tone in which emoji with tones are told. -/
def firstTone : Nat := 0x1F3FB

/-- The ends of names that tell the tone of the skin, in the order of the tones. -/
def toneEndings : List String :=
  ["_light_skin_tone", "_medium-light_skin_tone", "_medium_skin_tone", "_medium-dark_skin_tone",
    "_dark_skin_tone"]

/-- A text without its end. -/
def dropEnd? (ending text : String) : Option String :=
  if text.endsWith ending then some (String.ofList (text.toList.take (text.length - ending.length)))
  else none

/-- The emoji of a name that ends in a tone. -/
def withTone? (name : String) : Option String :=
  toneEndings.zipIdx.findSome? fun (ending, index) => do
    let emoji ← lookup? toned (← dropEnd? ending name)
    return emoji.map fun c => if c.toNat = firstTone then Char.ofNat (firstTone + index) else c

def flag? (name : String) : Option String :=
  let country := if name.startsWith "flag_for_" then (name.drop 9).toString else name
  lookup? flags country

/-- The emoji of a name in lower case. -/
def ofName? (name : String) : Option String :=
  lookup? named name <|> flag? name <|> withTone? name

/-! ## Codes -/

/-- The forms in which an emoji may be asked for, and the characters that ask for them. -/
def forms : List (String × Char) := [("-emoji", '\uFE0F'), ("-text", '\uFE0E')]

/-- The emoji of what stands between colons. -/
def ofCode? (code : List Char) : Option (List Char) :=
  let text := String.ofList code
  let (name, form) := (forms.findSome? fun (ending, c) =>
    (dropEnd? ending text).map fun name => (name, [c])).getD (text, [])
  (ofName? (String.ofList (Case.lower name.toList))).map fun emoji => emoji.toList ++ form

/-- Whether a character may stand between the colons. -/
def isInCode (c : Char) : Bool := c != ':' && !isSpace c

/-- A text with emoji in the place of their codes. -/
def replace : List Char → List Char
  | [] => []
  | c :: rest =>
    if c == ':' then
      let code := rest.takeWhile isInCode
      match _h : rest.drop code.length with
      | ':' :: after => (ofCode? code).getD (':' :: code ++ [':']) ++ replace after
      | _ => c :: replace rest
    else c :: replace rest
termination_by text => text.length
decreasing_by
  · have := congrArg List.length _h
    simp at this
    simp
    omega
  · simp
  · simp

end SdlAssembly.Console.Emoji
