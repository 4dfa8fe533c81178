import SdlAssembly.Number.Written
import SdlAssembly.Yaml.Tag
import SdlAssembly.Yaml.Token

/-!
# Numerals

The numbers that scalars stand for. Underscores part digits and mean nothing, parts between colons
are digits of base sixty, and a whole number may be in base two, eight or sixteen.
-/

namespace SdlAssembly.Yaml

open Number Number.Written Text

def hasColon (text : List Char) : Bool := text.contains ':'

/-- The text of a scalar without underscores. -/
def dropLines : ScalarText → ScalarText
  | .whole text => .whole (String.ofList (text.toList.filter (· != '_')))
  | .broken codes => .broken (codes.filter (· != '_'.toNat))

/-! ## Whole numbers -/

/-- A whole number in a base, with blanks around it and a sign. -/
def wholeIn (base : Nat) (text : List Char) : Except ScalarFault Int :=
  (whole base text).mapError .notWhole

/-- The whole number of parts in base sixty. -/
def wholeInSixties (text : List Char) : Except ScalarFault Int := do
  let digits ← (colonParts text).mapM (wholeIn 10)
  return digits.foldl (fun n d => n * 60 + d) 0

/-- The whole number of a scalar. -/
def wholeNumber (text : ScalarText) : Except ScalarFault Int := do
  match dropLines text with
  | .broken codes => throw (.notWhole (.notWhole (ScalarText.broken codes).literal 10))
  | .whole text =>
    let (negative, body) := takeSign text.toList
    let size ←
      match body with
      | [] => .error .emptyNumber
      | ['0'] => .ok 0
      | '0' :: 'b' :: digits => wholeIn 2 digits
      | '0' :: 'x' :: digits => wholeIn 16 digits
      | '0' :: _ => wholeIn 8 body
      | _ => if hasColon body then wholeInSixties body else wholeIn 10 body
    return if negative then -size else size

/-! ## Numbers with fractions -/

/-- A number with blanks around it and a sign; it may be named. -/
def realIn (text : List Char) : Except ScalarFault Binary64 :=
  match real? text with
  | some value => .ok value
  | none => .error (.notNumber (.whole (String.ofList text)))

/-- The sum of parts in base sixty, the last part first. -/
def sumOfSixties : (base : Nat) → Binary64 → List Binary64 → Except ScalarFault Binary64
  | _, sum, [] => .ok sum
  | base, sum, part :: rest =>
    let factor := Binary64.ofNat base
    if factor.isFinite then sumOfSixties (base * 60) (sum.add (part.times factor)) rest
    else .error .tooManyParts

/-- The number of parts in base sixty. -/
def realInSixties (text : List Char) : Except ScalarFault Binary64 := do
  let parts ← (colonParts text).mapM realIn
  sumOfSixties 1 .zero parts.reverse

/-- The number of a scalar. -/
def realNumber (text : ScalarText) : Except ScalarFault Binary64 := do
  match (dropLines text).lower with
  | .broken codes => throw (.notNumber (.broken codes))
  | .whole text =>
    if text.isEmpty then throw .emptyNumber
    let (negative, body) := takeSign text.toList
    let size ←
      if body == ".inf".toList then .ok (.infinite false)
      else if body == ".nan".toList then .ok .nan
      else if hasColon body then realInSixties body
      else realIn body
    return if negative then size.negate else size

end SdlAssembly.Yaml
