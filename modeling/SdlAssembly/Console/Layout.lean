import SdlAssembly.Console.Width
import SdlAssembly.Text.Space

/-!
# Lines of a console

A console is some cells wide. Lines are broken before a word that does not fit, and a word that fits
no line is cut.
-/

namespace SdlAssembly.Console

open Text

/-! ## Words -/

/-- The words of a line with the blanks after them; blanks before the first word belong to it. A
line of blanks has no words. -/
def splitWords : (fuel : Nat) → List Char → List (List Char)
  | 0, _ => []
  | fuel + 1, text =>
    let blanks := text.takeWhile isSpace
    let rest := text.drop blanks.length
    let word := rest.takeWhile fun c => !isSpace c
    let after := (rest.drop word.length).takeWhile isSpace
    if word.isEmpty then []
    else (blanks ++ word ++ after) :: splitWords fuel (rest.drop (word.length + after.length))

/-- Cuts the glyphs of a word into pieces that fit a line; `used` cells of the first piece are
taken. -/
def cut (limit : Nat) : (used : Nat) → (piece : List Char) → List Glyph → List (List Char)
  | _, piece, [] => [piece]
  | used, piece, glyph :: rest =>
    if limit < used + glyph.cells then piece :: cut limit glyph.cells glyph.chars rest
    else cut limit (used + glyph.cells) (piece ++ glyph.chars) rest

/-! ## Breaking -/

/-- The lengths of the lines that words are broken into. `start` is the place of the next word,
`offset` the number of cells before it on its line, and the breaks before it are known. -/
def breaksOf (limit : Nat) : (start offset : Nat) → List (List Char) → List Nat
  | _, _, [] => []
  | start, offset, word :: rest =>
    let bare := width (dropSpaceRight word)
    let next := start + word.length
    if bare ≤ limit - offset then breaksOf limit next (offset + width word) rest
    else if limit < bare then
      let pieces := cut limit 0 [] (glyphs word)
      let starts := (pieces.dropLast.foldl
        (fun places piece => places ++ [places.getLast?.getD start + piece.length]) [start])
      starts.filter (· != 0) ++ breaksOf limit next (width (pieces.getLast?.getD [])) rest
    else if offset != 0 && start != 0 then start :: breaksOf limit next (width word) rest
    else breaksOf limit next offset rest

/-- Cuts a text at places. -/
def splitAtPlaces : (start : Nat) → List Nat → List Char → List (List Char)
  | _, [], text => [text]
  | start, place :: places, text =>
    text.take (place - start) :: splitAtPlaces place places (text.drop (place - start))

/-- Takes away blanks at the end beyond a number of characters. -/
def dropEndBlanks (limit : Nat) (line : List Char) : List Char :=
  let excess := line.length - limit
  let blanks := line.length - (dropSpaceRight line).length
  line.take (line.length - min excess blanks)

/-- The glyphs that fit some cells, filled up with blanks where half a glyph is left. -/
def crop : (limit : Nat) → List Glyph → List Char
  | _, [] => []
  | limit, glyph :: rest =>
    if glyph.cells ≤ limit then glyph.chars ++ crop (limit - glyph.cells) rest
    else List.replicate limit ' '

/-- A line that is at most some cells wide. -/
def fit (limit : Nat) (line : List Char) : List Char :=
  let line := dropEndBlanks limit line
  if limit < width line then crop limit (glyphs line) else line

/-- Puts blanks in the place of tabs, up to the next of the places that are eight cells apart. The
text since the last tab is given, its last character first. -/
def expandTabs (reversed : List Char) : List Char → List Char
  | [] => reversed.reverse
  | '\t' :: rest =>
    let part := (' ' :: reversed).reverse
    part ++ List.replicate ((8 - width part % 8) % 8) ' ' ++ expandTabs [] rest
  | c :: rest => expandTabs (c :: reversed) rest

/-- The lines that one line is broken into. -/
def breakLine (limit : Nat) (line : List Char) : List (List Char) :=
  let line := expandTabs [] line
  let places := breaksOf limit 0 0 (splitWords line.length line)
  (splitAtPlaces 0 places line).map (fit limit)

/-- The lines of a text between line feeds. -/
def splitLines : List Char → List (List Char)
  | [] => [[]]
  | '\n' :: rest => [] :: splitLines rest
  | c :: rest =>
    match splitLines rest with
    | [] => [[c]]
    | line :: others => (c :: line) :: others

/-- A text on a console of some width. -/
def wrap (limit : Nat) (text : List Char) : String :=
  let lines := (splitLines text).flatMap (breakLine limit)
  String.ofList (lines.flatMap fun line => line ++ ['\n'])

end SdlAssembly.Console
