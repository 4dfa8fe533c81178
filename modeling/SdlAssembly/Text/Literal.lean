import SdlAssembly.Text.Printable

/-!
# String literals in reports

A string is shown between single quotes, or between double quotes if it has single ones only.
Characters that show nothing are written as escapes.
-/

namespace SdlAssembly.Text.Literal

/-- A hexadecimal digit in lower case. -/
def hexDigit (n : Nat) : Char :=
  if n < 10 then Char.ofNat (48 + n) else Char.ofNat (87 + n)

/-- A number in a given count of hexadecimal digits. -/
def hex : (digits : Nat) → Nat → List Char
  | 0, _ => []
  | digits + 1, n => hex digits (n / 16) ++ [hexDigit (n % 16)]

/-- The quote to put around a string. -/
def quoteFor (cs : List Char) : Char :=
  if cs.contains '\'' && !cs.contains '"' then '"' else '\''

/-- The written form of one character between the given quotes. -/
def encodeChar (quote c : Char) : List Char :=
  let n := c.toNat
  if c == '\\' || c == quote then ['\\', c]
  else if c == '\n' then ['\\', 'n']
  else if c == '\r' then ['\\', 'r']
  else if c == '\t' then ['\\', 't']
  else if Printable.isPrintable n then [c]
  else if n < 0x100 then '\\' :: 'x' :: hex 2 n
  else if n < 0x10000 then '\\' :: 'u' :: hex 4 n
  else '\\' :: 'U' :: hex 8 n

/-- A string as a literal. -/
def quote (text : String) : String :=
  let cs := text.toList
  let q := quoteFor cs
  String.ofList (q :: cs.flatMap (encodeChar q) ++ [q])

/-- The written form of a code point, which may be a surrogate, between the given quotes. -/
def encodeCode (quote : Char) (n : Nat) : List Char :=
  if n.isValidChar then encodeChar quote (Char.ofNat n) else '\\' :: 'u' :: hex 4 n

/-- A text of code points as a literal. -/
def quoteCodes (codes : List Nat) : String :=
  let q := quoteFor ((codes.filter fun n => n.isValidChar).map Char.ofNat)
  String.ofList (q :: codes.flatMap (encodeCode q) ++ [q])

end SdlAssembly.Text.Literal
