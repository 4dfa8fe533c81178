import SdlAssembly.Console.Emoji
import SdlAssembly.Console.Handler
import SdlAssembly.Console.Look

/-!
# Markup

Messages may hold tags in square brackets that set how the text between them looks. What is shown
here has no looks, so tags vanish, but a closing tag has to close a tag that is open. A backslash
keeps a tag as text.
-/

namespace SdlAssembly.Console

open Text

/-! ## Tags -/

/-- A tag: its name, and what follows an equals sign in it. -/
structure MarkupTag where
  name : List Char
  parameters : Option (List Char)
  deriving Repr, BEq, DecidableEq

/-- A tag as it is written. -/
def MarkupTag.written (tag : MarkupTag) : String :=
  let inner := match tag.parameters with
    | none => tag.name
    | some parameters => tag.name ++ '=' :: parameters
  String.ofList ('[' :: inner ++ [']'])

def MarkupTag.ofText (text : List Char) : MarkupTag :=
  let name := text.takeWhile (· != '=')
  match text.drop name.length with
  | [] => ⟨name, none⟩
  | _ :: parameters => ⟨name, some parameters⟩

def startsTag (c : Char) : Bool := ('a' ≤ c && c ≤ 'z') || c == '#' || c == '/' || c == '@'

/-- The inside of a tag whose opening bracket is read, and what follows it. -/
def takeTag? (cs : List Char) : Option (List Char × List Char) :=
  match cs with
  | [] => none
  | first :: rest =>
    let inner := rest.takeWhile fun c => c != '[' && c != ']'
    match rest.drop inner.length with
    | ']' :: after => if startsTag first then some (first :: inner, after) else none
    | _ => none

/-! ## Pieces -/

inductive Piece where
  | text (text : List Char)
  | tag (tag : MarkupTag) (position : Nat)
  deriving Repr, BEq

/-- The pieces of a tag after some backslashes: each two stand for one, and one that is left over
keeps the tag as text. -/
def tagPieces (slashes position : Nat) (inner : List Char) : List Piece :=
  let kept := if slashes < 2 then [] else [Piece.text (List.replicate (slashes / 2) '\\')]
  if slashes % 2 = 1 then kept ++ [.text ('[' :: inner ++ [']'])]
  else kept ++ [.tag (.ofText inner) (position + slashes)]

def textPiece (reversed : List Char) : List Piece :=
  if reversed.isEmpty then [] else [.text reversed.reverse]

/-- The pieces of a message that is read from a position on, after some text. The fuel is the number
of its characters. -/
def piecesFrom : (fuel position : Nat) → (reversed : List Char) → List Char → List Piece
  | 0, _, reversed, _ => textPiece reversed
  | _, _, reversed, [] => textPiece reversed
  | fuel + 1, position, reversed, c :: rest =>
    let slashes := (c :: rest).takeWhile (· == '\\')
    match (c :: rest).drop slashes.length with
    | '[' :: more =>
      match takeTag? more with
      | some (inner, after) =>
        let length := slashes.length + inner.length + 2
        textPiece reversed ++ tagPieces slashes.length position inner
          ++ piecesFrom fuel (position + length) [] after
      | none => piecesFrom fuel (position + 1) (c :: reversed) rest
    | _ => piecesFrom fuel (position + 1) (c :: reversed) rest

def pieces (message : List Char) : List Piece := piecesFrom message.length 0 [] message

/-! ## Rendering -/

inductive MarkupFault where
  /-- A closing tag closes nothing that is open. -/
  | unmatched (tag : String) (position : Nat)
  | nothingOpen (position : Nat)
  | handler (fault : HandlerFault)
  /-- A part of a colour is no number. -/
  | notNumber (fault : Number.Written.WholeFault)
  deriving Repr, BEq, DecidableEq

def MarkupFault.message : MarkupFault → String
  | unmatched tag position =>
    "closing tag '" ++ tag ++ "' at position " ++ toString position
      ++ " doesn't match any open tag"
  | nothingOpen position =>
    "closing tag '[/]' at position " ++ toString position ++ " has nothing to close"
  | handler fault => fault.message
  | notNumber fault => fault.message

/-- A tag that is open: its name, which all tags for the same look share, and its parameters. -/
structure OpenTag where
  name : String
  parameters : Option (List Char)
  deriving Repr, BEq, DecidableEq

namespace OpenTag

/-- Whether a tag sets a handler and no look. -/
def isHandler (tag : OpenTag) : Bool := tag.name.startsWith "@"

/-- What is wrong with the handler of a tag that is closed. -/
def close (tag : OpenTag) : Except MarkupFault Unit :=
  match tag.parameters with
  | some parameters =>
    if tag.isHandler && !parameters.isEmpty then
      (Handler.checkParameters parameters).mapError .handler
    else .ok ()
  | none => .ok ()

/-- What is wrong with the look of a tag, where its parameters belong to it. -/
def checkLook (tag : OpenTag) : Except MarkupFault Unit :=
  match tag.parameters with
  | some parameters =>
    match Look.ofText (tag.name.toList ++ ' ' :: parameters) with
    | .error (.notNumber fault) => .error (.notNumber fault)
    | _ => .ok ()
  | none => .ok ()

end OpenTag

/-- The name of a look for all tags that set it. -/
def normalName (name : List Char) : Except MarkupFault String :=
  (Look.normalName name).mapError .notNumber

/-- The text between tags: a backslash before a bracket is taken away. -/
def unescape : List Char → List Char
  | '\\' :: '[' :: rest => '[' :: unescape rest
  | c :: rest => c :: unescape rest
  | [] => []

/-- The text of pieces, and the tags with a look that were opened in it. The tags that are open are
given, the innermost first. -/
def renderPieces : (opened : List OpenTag) → List Piece →
    Except MarkupFault (List Char × List OpenTag)
  | _, [] => .ok ([], [])
  | opened, .text text :: rest => do
    let (shown, tags) ← renderPieces opened rest
    return (Emoji.replace (unescape text) ++ shown, tags)
  | opened, .tag tag position :: rest => do
    match tag.name with
    | '/' :: name =>
      let found ←
        if (trim name).isEmpty then
          match opened.head? with
          | some found => pure found
          | none => throw (.nothingOpen position)
        else do
          let name ← normalName name
          match opened.find? (·.name == name) with
          | some found => pure found
          | none => throw (.unmatched tag.written position)
      found.close
      renderPieces (opened.eraseP (·.name == found.name)) rest
    | name =>
      let new : OpenTag := ⟨← normalName name, tag.parameters⟩
      let (shown, tags) ← renderPieces (new :: opened) rest
      return (shown, new :: tags)

/-- The text of a message with markup. -/
def render (message : List Char) : Except MarkupFault (List Char) := do
  let (shown, tags) ← renderPieces [] (pieces message)
  tags.forM OpenTag.checkLook
  return shown

/-- Whether a character moves the place of writing and is left out. -/
def isControl (c : Char) : Bool :=
  let n := c.toNat
  n == 7 || n == 8 || n == 11 || n == 12 || n == 13

/-- The text that a message shows. -/
def plain (message : String) : Except MarkupFault (List Char) :=
  let cs := message.toList
  let shown := if cs.contains '[' then render cs else .ok (Emoji.replace cs)
  shown.map fun text => text.filter fun c => !isControl c

end SdlAssembly.Console
