import SdlAssembly.Number.Binary64
import SdlAssembly.Text.Digit
import SdlAssembly.Text.Literal

/-!
# Written numbers

Numbers as people write them: with blanks around them, a sign, and digits of any script. A whole
number may be told to be in some base, and one in base ten may not be too long.
-/

namespace SdlAssembly.Number.Written

open Text

/-! ## Parts -/

/-- The blanks around a number, after blanks of other scripts got their plain form. -/
def isAround (c : Char) : Bool := c == ' ' || (0x09 ≤ c.toNat && c.toNat ≤ 0x0D)

/-- Takes a sign: whether it is a minus, and what follows. -/
def takeSign (text : List Char) : Bool × List Char :=
  match text with
  | '-' :: rest => (true, rest)
  | '+' :: rest => (false, rest)
  | _ => (false, text)

/-- The value of a digit in a base. -/
def digitValue? (base : Nat) (c : Char) : Option Nat :=
  let value :=
    if c.isDigit then some (c.toNat - '0'.toNat)
    else if 'a' ≤ c.toLower && c.toLower ≤ 'z' then some (c.toLower.toNat - 'a'.toNat + 10)
    else none
  value.filter (· < base)

/-- The digits in a base at the start of a text, and what follows them. -/
def takeDigits (base : Nat) : List Char → List Nat × List Char
  | [] => ([], [])
  | c :: rest =>
    match digitValue? base c with
    | none => ([], c :: rest)
    | some digit =>
      let (digits, after) := takeDigits base rest
      (digit :: digits, after)

/-- The letter after a zero that tells a base. -/
def baseLetter : Nat → Option Char
  | 2 => some 'b'
  | 8 => some 'o'
  | 16 => some 'x'
  | _ => none

/-- Digits without what tells their base. -/
def dropBase (base : Nat) (text : List Char) : List Char :=
  match text with
  | '0' :: letter :: rest => if some letter.toLower = baseLetter base then rest else text
  | _ => text

/-! ## Whole numbers -/

/-- Why a text is no whole number. -/
inductive WholeFault where
  | notWhole (shown : String) (base : Nat)
  | tooLong (digits : Nat)
  deriving Repr, BEq, DecidableEq

/-- The part of a text that a message shows. -/
def longestShown : Nat := 200

/-- A number in base ten with more digits than this is not read, and not shown. -/
def mostDigits : Nat := 4300

def WholeFault.message : WholeFault → String
  | notWhole shown base =>
    "invalid literal for int() with base " ++ toString base ++ ": "
      ++ String.ofList (shown.toList.take longestShown)
  | tooLong digits =>
    "Exceeds the limit (" ++ toString mostDigits
      ++ " digits) for integer string conversion: value has " ++ toString digits
      ++ " digits; use sys.set_int_max_str_digits() to increase the limit"

/-- A whole number in a base. -/
def whole (base : Nat) (text : List Char) : Except WholeFault Int :=
  let (negative, body) := takeSign ((plainForm text).dropWhile isAround)
  let (digits, rest) := takeDigits base (dropBase base body)
  if base = 10 ∧ mostDigits < digits.length then .error (.tooLong digits.length)
  else if digits.isEmpty || !rest.all isAround then
    .error (.notWhole (Literal.quote (String.ofList text)) base)
  else
    let size := digits.foldl (fun n d => n * base + d) 0
    .ok (if negative then -(size : Int) else size)

/-! ## Numbers with fractions -/

/-- The decimal of a text: its digits and the power of ten that they count. -/
def decimal? (text : List Char) : Option (Nat × Int) :=
  let whole := text.takeWhile Char.isDigit
  let rest := text.drop whole.length
  let (fraction, rest) := match rest with
    | '.' :: more =>
      let digits := more.takeWhile Char.isDigit
      (digits, more.drop digits.length)
    | _ => ([], rest)
  let digits := Nat.ofDigitChars 10 (whole ++ fraction) 0
  if whole.isEmpty && fraction.isEmpty then none
  else
    match rest with
    | [] => some (digits, -(fraction.length : Int))
    | e :: more =>
      let (negative, exponent) := takeSign more
      if e.toLower == 'e' && !exponent.isEmpty && exponent.all Char.isDigit then
        let power : Int := Nat.ofDigitChars 10 exponent 0
        some (digits, (if negative then -power else power) - fraction.length)
      else none

/-- A number with an optional fraction and exponent, or one of those that have names. -/
def real? (text : List Char) : Option Binary64 :=
  let inner := (((plainForm text).dropWhile isAround).reverse.dropWhile isAround).reverse
  let (negative, body) := takeSign inner
  match String.ofList (body.map Char.toLower) with
  | "inf" | "infinity" => some (.infinite negative)
  | "nan" => some .nan
  | _ => (decimal? body).map fun (digits, power) => .ofDecimal negative digits power

end SdlAssembly.Number.Written
