import SdlAssembly.Text.Case
import SdlAssembly.Text.Literal

/-!
# What scalars say

The text of a scalar. An escape may name one half of a surrogate pair, which is no character, so a
text with such a half is kept by its code points.
-/

namespace SdlAssembly.Yaml

open Text

inductive ScalarText where
  | whole (text : String)
  /-- Some of the code points are halves of surrogate pairs. -/
  | broken (codes : List Nat)
  deriving Repr, BEq, DecidableEq, Inhabited

namespace ScalarText

def ofCodes (codes : List Nat) : ScalarText :=
  if codes.all fun n => n.isValidChar then .whole (String.ofList (codes.map Char.ofNat))
  else .broken codes

/-- The text in a message. -/
def literal : ScalarText → String
  | whole text => Literal.quote text
  | broken codes => Literal.quoteCodes codes

/-- The text in lower case; of a broken one the characters below the surrogates change one by
one. -/
def lower : ScalarText → ScalarText
  | whole text => .whole (String.ofList (Case.lower text.toList))
  | broken codes => .broken <| codes.map fun n =>
      if n.isValidChar then (Case.lowerChar (Char.ofNat n)).toNat else n

end ScalarText

end SdlAssembly.Yaml
