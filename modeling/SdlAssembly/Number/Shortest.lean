import SdlAssembly.Number.Binary64

/-!
# Shortest decimals

A floating point number is written with the fewest digits that read back as the same number, and of
several such decimals the nearest to it is taken.
-/

namespace SdlAssembly.Number

open Binary64

/-! ## Digits -/

/-- The number of decimal digits before the point of a positive fraction; it is not positive for
fractions below one tenth. -/
def pointPlace (num den : Nat) : Int :=
  let guess : Int := (Nat.toDigits 10 num).length - (Nat.toDigits 10 den).length
  let (n, d) := scale 10 (-guess) num den
  if n < d then guess else guess + 1

/-- Whether a decimal reads back as a mantissa and exponent. -/
def readsAs (mantissa : Nat) (exponent : Int) (digits : Nat) (power : Int) : Bool :=
  let (n, d) := scale 10 power digits 1
  n != 0 && nearest n d == some (mantissa, exponent)

/-- The decimal on the grid of `10 ^ power` that reads back, the nearer one if both neighbours
do. -/
def onGrid? (mantissa : Nat) (exponent power : Int) : Option Nat :=
  let (n, d) := scale 2 exponent mantissa 1
  let (n, d) := scale 10 (-power) n d
  let below := n / d
  let closer := roundDiv n d
  let other := if closer = below then below + 1 else below
  [closer, other].find? fun digits => readsAs mantissa exponent digits power

/-- The most digits that are ever needed. -/
def mostDigits : Nat := 17

/-- The digits of the shortest decimal of a positive number and the place of its point. -/
def shortestDigits (mantissa : Nat) (exponent : Int) : List Char × Int :=
  let (n, d) := scale 2 exponent mantissa 1
  let place := pointPlace n d
  let found := (List.range mostDigits).findSome? fun i =>
    let power := place - (i + 1 : Nat)
    (onGrid? mantissa exponent power).map fun digits => (digits, power)
  match found with
  | some (digits, power) =>
    let text := Nat.toDigits 10 digits
    let place := power + text.length
    let trimmed := (text.reverse.dropWhile (· == '0')).reverse
    (trimmed, place)
  | none => (Nat.toDigits 10 mantissa, 0)

/-! ## Text -/

/-- Numbers from this power of ten on are written with an exponent. -/
def positionalBelow : Int := 16

/-- Numbers below this power of ten are written with an exponent. -/
def positionalFrom : Int := -4

/-- An exponent with its sign and at least two digits. -/
def exponentText (e : Int) : String :=
  let digits := toString e.natAbs
  "e" ++ (if e < 0 then "-" else "+") ++ (if digits.length < 2 then "0" ++ digits else digits)

/-- Digits with the point at a place, positional or with an exponent. -/
def placePoint (digits : List Char) (place : Int) : String :=
  if positionalFrom < place && place ≤ positionalBelow then
    if place ≤ 0 then
      "0." ++ String.ofList (List.replicate (-place).toNat '0' ++ digits)
    else
      let whole := digits.take place.toNat
      let zeros := List.replicate (place.toNat - digits.length) '0'
      let rest := digits.drop place.toNat
      String.ofList (whole ++ zeros) ++ "." ++ (if rest.isEmpty then "0" else String.ofList rest)
  else
    let rest := digits.drop 1
    String.ofList (digits.take 1) ++ (if rest.isEmpty then "" else "." ++ String.ofList rest)
      ++ exponentText (place - 1)

/-- The text of a number; a whole number keeps one digit after the point. -/
def Binary64.text : Binary64 → String
  | nan => "nan"
  | infinite negative => if negative then "-inf" else "inf"
  | finite negative mantissa exponent =>
    (if negative then "-" else "")
      ++ if mantissa = 0 then "0.0"
        else
          let (digits, place) := shortestDigits mantissa exponent
          placePoint digits place

end SdlAssembly.Number
