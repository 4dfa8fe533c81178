import SdlAssembly.Text.Case.Table
import SdlAssembly.Text.Ranges

/-!
# Lower case

A text in lower case, letter by letter. Two letters need more: a capital I with a dot gives two
characters, and a capital sigma gives the form for the end of a word where one ends.
-/

namespace SdlAssembly.Text.Case

/-- Whether a character has a case and is not passed over. -/
def isCased (c : Char) : Bool := inRanges cased c.toNat

/-- Whether a character is passed over when one looks for the end of a word. -/
def isPassed (c : Char) : Bool :=
  if c.toNat < 0x1000 then inRanges lowPassed c.toNat else inRanges highPassed c.toNat

def Run.contains (run : Run) (n : Nat) : Bool :=
  run.first ≤ n && n ≤ run.last && (n - run.first) % run.step == 0

/-- The lower case of a character. -/
def lowerChar (c : Char) : Char :=
  let n := c.toNat
  if n < 0x80 then c.toLower
  else
    match runs.find? fun run => run.contains n with
    | some run => Char.ofNat (n + run.shift).toNat
    | none => c

/-- Whether the next character that is not passed over has a case. -/
def meetsCased (cs : List Char) : Bool :=
  ((cs.dropWhile isPassed).head?.map isCased).getD false

/-- The lower case of a text, whose characters before it are given, the last first. -/
def lowerFrom (before : List Char) : List Char → List Char
  | [] => []
  | c :: rest =>
    let changed :=
      if c == '\u0130' then ['i', '\u0307']
      else if c == '\u03A3' then
        [if meetsCased before && !meetsCased rest then '\u03C2' else '\u03C3']
      else [lowerChar c]
    changed ++ lowerFrom (c :: before) rest

/-- A text in lower case. -/
def lower (cs : List Char) : List Char := lowerFrom [] cs

end SdlAssembly.Text.Case
