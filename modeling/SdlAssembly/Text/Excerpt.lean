import SdlAssembly.Text.Source

/-!
# Excerpts

An excerpt names a position and shows the line it is on, with a caret under its column and the
neighbouring lines around it. A very long line is shown in pieces instead.
-/

namespace SdlAssembly.Text

/-- Longer lines are cut. -/
def longestWholeLine : Nat := 120

/-- The width of the pieces of a long line. -/
def pieceWidth : Nat := 80

/-! ## Layout -/

/-- Pads on the left up to a width. -/
def padLeft (width : Nat) (text : String) : String :=
  String.ofList (List.replicate (width - text.length) ' ') ++ text

/-- Cuts a line into pieces of `width + 1` characters; the last one may be shorter. -/
def pieces (width : Nat) (line : List Char) : List (List Char) :=
  if line.isEmpty then [] else line.take (width + 1) :: pieces width (line.drop (width + 1))
termination_by line.length
decreasing_by
  rename_i h
  cases line with
  | nil => simp at h
  | cons c r => simp only [List.length_drop, List.length_cons]; omega

/-- Rows of a margin and a text, with the margins aligned on the right; an empty text leaves its
margin alone. -/
def withMargins (rows : List (String × String)) : String :=
  let width := (rows.map (·.1.length)).foldl max 0
  "\n".intercalate <| rows.map fun (margin, text) =>
    padLeft width margin ++ (if text.isEmpty then "" else " " ++ text)

private def rowOf (margin : String) (line : Option (List Char)) : List (String × String) :=
  match line with
  | some line => [(margin, String.ofList line)]
  | none => []

/-! ## The excerpt of a position -/

/-- The rows of a line that fits, between its neighbours. -/
def wholeRows (all : List (List Char)) (place : Place) : List (String × String) :=
  let number (n : Nat) := toString n ++ " |"
  (if place.line ≤ 1 then [] else rowOf (number (place.line - 1)) all[place.line - 2]?)
    ++ rowOf (number place.line) all[place.line - 1]?
    ++ [("|", padLeft place.column "^")]
    ++ rowOf (number (place.line + 1)) all[place.line]?

/-- The rows of a long line: its pieces up to the one with the column, the caret, and one more
piece. -/
def cutRows (line : List Char) (place : Place) : List (String × String) :=
  let cut := pieces (pieceWidth - 1) line
  let index := place.column / pieceWidth
  rowOf (toString place.line ++ " |") cut[0]?
    ++ (cut.drop 1 |>.take index).map (fun piece => ("|", String.ofList piece))
    ++ [("|", padLeft (place.column % pieceWidth) "^")]
    ++ rowOf "|" cut[index + 1]?

/-- The name, line and column of a position, then the lines around it. -/
def Position.excerpt (position : Position) : String :=
  let place := position.place
  let all := lines position.source.body.toList
  let line := all[place.line - 1]?.getD []
  let rows := if line.length > longestWholeLine then cutRows line place else wholeRows all place
  position.source.name ++ ":" ++ toString place.line ++ ":" ++ toString place.column ++ "\n"
    ++ withMargins rows

end SdlAssembly.Text
