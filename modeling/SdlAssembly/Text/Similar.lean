/-!
# Similar names

A name that is unknown is answered by the known names that are few edits away, the nearest first.
-/

namespace SdlAssembly.Text.Similar

/-! ## Distance -/

/-- The last row of the table of edit distances, after the rows for the characters read so far:
`twoUp` and `up` are the rows before it, and `before` is the character of row `up`. -/
structure Rows where
  twoUp : List Nat
  up : List Nat
  before : Option Char

/-- The cells of a row from one column on. An edit inserts, deletes or replaces a character, or
swaps two neighbours. -/
def cells (c : Char) (before : Option Char) :
    (left diagonal : Nat) → (previous : Option Char) → (twoUp up : List Nat) → List Char → List Nat
  | left, diagonal, previous, twoUp, above :: up, d :: rest =>
    let cost := if c == d then 0 else 1
    let plain := min (min (above + 1) (left + 1)) (diagonal + cost)
    let cell :=
      match twoUp with
      | corner :: _ =>
        if previous == some c && before == some d then min plain (corner + 1) else plain
      | [] => plain
    let twoUp := match previous with
      | none => twoUp
      | some _ => twoUp.drop 1
    cell :: cells c before cell above (some d) twoUp up rest
  | _, _, _, _, _, _ => []

/-- Adds the row of one character. -/
def Rows.next (target : List Char) (rows : Rows) (c : Char) : Rows :=
  match rows.up with
  | [] => rows
  | first :: up =>
    let row := (first + 1) :: cells c rows.before (first + 1) first none rows.twoUp up target
    ⟨rows.up, row, some c⟩

/-- The least number of edits between two texts. -/
def distance (a b : List Char) : Nat :=
  let start : Rows := ⟨[], List.range (b.length + 1), none⟩
  ((a.foldl (Rows.next b) start).up.getLast?).getD 0

/-- The distance between names; any change of case counts as one edit. -/
def nameDistance (input option : String) : Nat :=
  if input == option then 0
  else
    let a := input.toList.map Char.toLower
    let b := option.toList.map Char.toLower
    if a == b then 1 else distance b a

/-! ## Order -/

/-- A part of a name: a number, or the text between numbers. -/
inductive Part where
  | text (cs : List Char)
  | number (value : Nat) (digits : List Char)
  deriving BEq

/-- The numbers of a name and the texts around them. -/
def parts (cs : List Char) : List Part :=
  let text := cs.takeWhile fun c => !c.isDigit
  let rest := cs.dropWhile fun c => !c.isDigit
  let digits := rest.takeWhile Char.isDigit
  let after := rest.drop digits.length
  if digits.isEmpty then [.text text]
  else if _shorter : after.length < cs.length then
    .text text :: .number (Nat.ofDigitChars 10 digits 0) digits :: parts after
  else [.text text]
termination_by cs.length
decreasing_by assumption

/-- Numbers are compared by value, then by their digits. -/
def comparePart : Part → Part → Ordering
  | .text a, .text b => compare (String.ofList a) (String.ofList b)
  | .number a as, .number b bs =>
    (compare a b).then (compare (String.ofList as) (String.ofList bs))
  | .text _, .number _ _ => .lt
  | .number _ _, .text _ => .gt

def compareParts : List Part → List Part → Ordering
  | [], [] => .eq
  | [], _ :: _ => .lt
  | _ :: _, [] => .gt
  | a :: as, b :: bs => (comparePart a b).then (compareParts as bs)

/-! ## Suggestions -/

/-- The most edits that a name of this length may be away. -/
def threshold (length : Nat) : Nat := length * 2 / 5 + 1

/-- At most this many names are suggested. -/
def mostSuggestions : Nat := 5

/-- The names close enough to an unknown one, the nearest first. -/
def suggestions (input : String) (options : List String) : List String :=
  let measured := options.eraseDups.map fun option => (nameDistance input option, option)
  let close := measured.filter fun (d, _) => d ≤ threshold input.length
  let le (a b : Nat × String) : Bool :=
    ((compare a.1 b.1).then (compareParts (parts a.2.toList) (parts b.2.toList))) != .gt
  (close.mergeSort le).map (·.2)

/-- The question that suggests names, or nothing. -/
def didYouMean (names : List String) : String :=
  let quoted := (names.take mostSuggestions).map fun name => "'" ++ name ++ "'"
  match quoted with
  | [] => ""
  | [only] => " Did you mean " ++ only ++ "?"
  | [a, b] => " Did you mean " ++ a ++ " or " ++ b ++ "?"
  | many =>
    " Did you mean " ++ ", ".intercalate many.dropLast ++ ", or " ++ (many.getLast?.getD "") ++ "?"

end SdlAssembly.Text.Similar
