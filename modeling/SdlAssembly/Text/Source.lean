/-!
# Named texts and places in them

A document is read from a named text. A node of a document remembers where it started, so that a
message about it can show the lines around that place.
-/

namespace SdlAssembly.Text

/-! ## Lines -/

/-- The lines of a text: CR LF, LF and CR each end one, and the last line has no end. -/
def lines : List Char → List (List Char)
  | [] => [[]]
  | '\r' :: '\n' :: rest => [] :: lines rest
  | '\r' :: rest => [] :: lines rest
  | '\n' :: rest => [] :: lines rest
  | c :: rest =>
    match lines rest with
    | [] => [[c]]
    | line :: others => (c :: line) :: others

/-! ## Places -/

/-- A line and a column, both counted from 1; columns count characters. -/
structure Place where
  line : Nat
  column : Nat
  deriving Repr, BEq, DecidableEq, Inhabited

/-- The place reached from `place` by reading `count` characters of a text. -/
def Place.advance (place : Place) : List Char → Nat → Place
  | _, 0 => place
  | [], count => { place with column := place.column + count }
  | '\r' :: '\n' :: rest, count + 1 =>
    advance ⟨place.line + 1, 1⟩ rest (count - 1)
  | '\r' :: rest, count + 1 => advance ⟨place.line + 1, 1⟩ rest count
  | '\n' :: rest, count + 1 => advance ⟨place.line + 1, 1⟩ rest count
  | _ :: rest, count + 1 => advance { place with column := place.column + 1 } rest count

/-! ## Sources and positions -/

/-- A text with the name that messages give it. -/
structure Source where
  name : String
  body : String
  deriving Repr, BEq, DecidableEq, Inhabited

/-- The place of the character at an offset. -/
def Source.place (source : Source) (offset : Nat) : Place :=
  Place.advance ⟨1, 1⟩ source.body.toList offset

/-- An offset into a source, in characters. -/
structure Position where
  source : Source
  offset : Nat
  deriving Repr, BEq, DecidableEq, Inhabited

def Position.place (position : Position) : Place :=
  position.source.place position.offset

end SdlAssembly.Text
