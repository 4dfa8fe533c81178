import SdlAssembly.Text.Utf8

/-!
# Supplies of text

A text is decoded from bytes in pieces, as far as it is asked for. A piece may end inside a character
or between the two characters of a line end: what it ends in is held back for the next one. A fault
is told by its place among the bytes that are decoded together.
-/

namespace SdlAssembly.Text

open Utf8

/-- What is left of a text: the bytes that are not read, those that are held back, whether a carriage
return is held back, and the characters that nobody has taken. -/
structure Supply where
  bytes : List UInt8
  held : List UInt8 := []
  heldReturn : Bool := false
  ready : List Char := []
  /-- The bytes of the last piece, and its characters. -/
  rate : Nat × Nat := (0, 0)

namespace Supply

/-- The least number of bytes that are read at once. -/
def pieceSize : Nat := 8192

/-- The bytes to read for a number of characters, if they take as many as those of the last
piece. -/
def size (s : Supply) (wanted : Nat) : Nat := max pieceSize (wanted * s.rate.1 / s.rate.2)

/-- Decodes the next piece: says whether there was one, or something held back. -/
def decodePiece (s : Supply) (wanted : Nat) : Except Fault (Bool × Supply) := do
  let piece := s.bytes.take (s.size wanted)
  let last := piece.isEmpty
  let (chars, held) ← decodePart last (s.held ++ piece)
  let returns := s.heldReturn && (last || !chars.isEmpty)
  let chars := if returns then '\r' :: chars else chars
  let holds := !last && chars.getLast? == some '\r'
  let chars := joinLineEnds (if holds then chars.dropLast else chars)
  return (!last || !chars.isEmpty,
    { bytes := s.bytes.drop (s.size wanted)
      held := held
      heldReturn := holds || (s.heldReturn && !returns)
      ready := chars
      rate := (piece.length, chars.length) })

/-- Takes characters, and decodes pieces as long as there are too few of them. -/
def takeFrom : (fuel : Nat) → (wanted : Nat) → Supply → Except Fault (List Char × Supply)
  | 0, _, s => .ok ([], s)
  | fuel + 1, wanted, s =>
    let taken := s.ready.take wanted
    let s := { s with ready := s.ready.drop wanted }
    let missing := wanted - taken.length
    if missing = 0 then .ok (taken, s)
    else do
      let (goesOn, s) ← s.decodePiece missing
      if !goesOn then return (taken, s)
      let (more, s) ← takeFrom fuel missing s
      return (taken ++ more, s)

/-- Takes a number of characters, or all that are left. Every piece but the last two has a byte. -/
def take (s : Supply) (wanted : Nat) : Except Fault (List Char × Supply) :=
  takeFrom (s.bytes.length + 3) wanted s

end Supply

end SdlAssembly.Text
