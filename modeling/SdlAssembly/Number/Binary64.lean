/-!
# Binary floating point numbers

Numbers with 53 binary digits and their rounding from decimals, in exact arithmetic. A finite number
is `mantissa * 2 ^ exponent`; the mantissa has 53 digits unless the exponent is the least.
-/

namespace SdlAssembly.Number

inductive Binary64 where
  | finite (negative : Bool) (mantissa : Nat) (exponent : Int)
  | infinite (negative : Bool)
  | nan
  deriving Repr, BEq, DecidableEq, Inhabited

namespace Binary64

def zero : Binary64 := .finite false 0 0

def isFinite : Binary64 → Bool
  | finite _ _ _ => true
  | infinite _ | nan => false

/-! ## Rounding -/

/-- The numbers of 53 binary digits start here. -/
def leastFull : Nat := 4503599627370496

/-- The least exponent of a finite number. -/
def leastExponent : Int := -1074

/-- The greatest exponent of a finite number. -/
def greatestExponent : Int := 971

/-- The quotient rounded to the nearest whole number, a half to the even neighbour. -/
def roundDiv (num den : Nat) : Nat :=
  let q := num / den
  let r := num % den
  if 2 * r < den then q
  else if 2 * r > den then q + 1
  else if q % 2 = 0 then q else q + 1

/-- A fraction times a power of a base, as a fraction. -/
def scale (base : Nat) (power : Int) (num den : Nat) : Nat × Nat :=
  if 0 ≤ power then (num * base.pow power.toNat, den) else (num, den * base.pow (-power).toNat)

/-- The exponent at which a positive fraction has a mantissa of 53 digits, or the least one. -/
def exponentOf (num den : Nat) : Int :=
  let guess : Int := (Nat.log2 num : Int) - Nat.log2 den - 52
  let (n, d) := scale 2 (-guess) num den
  max leastExponent (if n < d * leastFull then guess - 1 else guess)

/-- A positive fraction rounded to a mantissa at an exponent, or at the next one if the mantissa gets
too long; none if it is too great. -/
def roundAt (num den : Nat) (e : Int) : Option (Nat × Int) :=
  let (n, d) := scale 2 (-e) num den
  let m := roundDiv n d
  let (m, e) := if m = 2 * leastFull then (leastFull, e + 1) else (m, e)
  if e > greatestExponent then none else some (m, e)

/-- The number nearest to a positive fraction: mantissa and exponent, or none if it is too great. -/
def nearest (num den : Nat) : Option (Nat × Int) := roundAt num den (exponentOf num den)

/-- A number from its sign and rounded size. -/
def ofRounded (negative : Bool) : Option (Nat × Int) → Binary64
  | some (m, e) => .finite negative m e
  | none => .infinite negative

/-- Decimals of this many digits before or after the point are beyond all finite numbers. -/
def decimalBound : Int := 400

/-- The number nearest to `digits * 10 ^ power`. -/
def ofDecimal (negative : Bool) (digits : Nat) (power : Int) : Binary64 :=
  let size : Int := (Nat.toDigits 10 digits).length + power
  if digits = 0 || size < -decimalBound then .finite negative 0 leastExponent
  else if size > decimalBound then .infinite negative
  else
    let fraction := scale 10 power digits 1
    ofRounded negative (nearest fraction.1 fraction.2)

/-! ## Whole numbers -/

/-- The whole number that a number is, if it is one. -/
def toInt? : Binary64 → Option Int
  | finite negative mantissa exponent =>
    let (n, d) := scale 2 exponent mantissa 1
    if n % d = 0 then some (if negative then -(n / d : Nat) else (n / d : Nat)) else none
  | infinite _ | nan => none

/-! ## Fractions -/

/-- The number nearest to a fraction. -/
def ofRatio (negative : Bool) (num den : Nat) : Binary64 :=
  if num = 0 then .finite negative 0 leastExponent else ofRounded negative (nearest num den)

def negate : Binary64 → Binary64
  | finite negative mantissa exponent => .finite (!negative) mantissa exponent
  | infinite negative => .infinite (!negative)
  | nan => nan

/-- The number nearest to a whole number. -/
def ofNat (n : Nat) : Binary64 := ofRatio false n 1

/-- The product with a positive finite number. -/
def times (value factor : Binary64) : Binary64 :=
  match value, factor with
  | finite negative m e, finite _ n f =>
    let (num, den) := scale 2 (e + f) (m * n) 1
    ofRatio negative num den
  | _, _ => value

def add (a b : Binary64) : Binary64 :=
  match a, b with
  | finite m k e, finite n l f =>
    let least := min e f
    let signed (negative : Bool) (mantissa : Nat) (exponent : Int) : Int :=
      let size := mantissa * Nat.pow 2 (exponent - least).toNat
      if negative then -size else size
    let sum := signed m k e + signed n l f
    if sum = 0 then .finite (m && n) 0 leastExponent
    else
      let (num, den) := scale 2 least sum.natAbs 1
      ofRatio (sum < 0) num den
  | infinite m, infinite n => if m = n then a else nan
  | infinite _, finite _ _ _ => a
  | finite _ _ _, infinite _ => b
  | _, _ => nan

end Binary64

end SdlAssembly.Number
