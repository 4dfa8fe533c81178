import SdlAssembly.Console.Width.Table
import SdlAssembly.Text.Ranges

/-!
# Widths of texts

A character takes no cell of a console, one or two. A joiner hides the character after it, and a
character that is followed by the sign for emoji may take two cells instead of one.
-/

namespace SdlAssembly.Console

open Text

/-! ## Characters -/

/-- The cells that a character takes by itself. -/
def cells (c : Char) : Nat :=
  let n := c.toNat
  if 0x20 ≤ n && n < 0x7F then 1
  else if n < 0xA0 then 0
  else if inRanges (if n < 0x3000 then Width.lowZero else Width.highZero) n then 0
  else if inRanges Width.double n then 2
  else 1

/-- Shows the characters next to it as one. -/
def joiner : Char := '\u200D'

/-- Asks for the character before it to be shown as emoji. -/
def emojiSign : Char := '\uFE0F'

/-- The cells that the last character with cells gains as emoji. -/
def gain (last : Option Char) : Nat :=
  match last with
  | some c => if inRanges Width.widened c.toNat then 1 else 0
  | none => 0

/-! ## Texts -/

/-- The cells of a text after its last character with cells that may still gain some. -/
def widthAfter : (last : Option Char) → List Char → Nat
  | _, [] => 0
  | last, [c] => if c == joiner then 0 else if c == emojiSign then gain last else cells c
  | last, c :: next :: rest =>
    if c == joiner then widthAfter last rest
    else if c == emojiSign then gain last + widthAfter none (next :: rest)
    else cells c + widthAfter (if cells c = 0 then last else some c) (next :: rest)

/-- The cells of a text. -/
def width (text : List Char) : Nat := widthAfter none text

/-! ## Glyphs -/

/-- Characters that are shown as one, and the cells that they take. -/
structure Glyph where
  chars : List Char
  cells : Nat
  deriving Repr, BEq, DecidableEq

/-- A glyph with characters after its own, which take further cells. -/
def Glyph.add (glyph : Glyph) (chars : List Char) (cells : Nat) : Glyph :=
  ⟨glyph.chars ++ chars, glyph.cells + cells⟩

/-- The glyphs of a text after a glyph that may go on. -/
def glyphsAfter : (glyph : Glyph) → (last : Option Char) → List Char → List Glyph
  | glyph, _, [] => [glyph]
  | glyph, last, [c] =>
    if c == joiner then [glyph.add [c] 0]
    else if c == emojiSign then [glyph.add [c] (gain last)]
    else if cells c = 0 then [glyph.add [c] 0]
    else [glyph, ⟨[c], cells c⟩]
  | glyph, last, c :: next :: rest =>
    if c == joiner then glyphsAfter (glyph.add [c, next] 0) last rest
    else if c == emojiSign then glyphsAfter (glyph.add [c] (gain last)) none (next :: rest)
    else if cells c = 0 then glyphsAfter (glyph.add [c] 0) last (next :: rest)
    else glyph :: glyphsAfter ⟨[c], cells c⟩ (some c) (next :: rest)

/-- The glyphs of a text. -/
def glyphs : List Char → List Glyph
  | [] => []
  | c :: rest => glyphsAfter ⟨[c], cells c⟩ (if cells c = 0 then none else some c) rest

end SdlAssembly.Console
