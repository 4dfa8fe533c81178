/-!
# Bytes in base sixty-four

Four letters stand for three bytes. Other characters are skipped, and an equals sign ends the text
where it completes a group; without one a group must be complete.
-/

namespace SdlAssembly.Yaml.Binary

/-- The six bits of a letter. -/
def bits? (c : Char) : Option Nat :=
  if 'A' ≤ c && c ≤ 'Z' then some (c.toNat - 'A'.toNat)
  else if 'a' ≤ c && c ≤ 'z' then some (c.toNat - 'a'.toNat + 26)
  else if c.isDigit then some (c.toNat - '0'.toNat + 52)
  else if c == '+' then some 62
  else if c == '/' then some 63
  else none

/-- The bytes of a text behind some letters of a group, which give `left`, and some equals signs. -/
def decodeFrom (letters left signs : Nat) : List Char → Option (List UInt8)
  | [] => if letters = 0 then some [] else none
  | c :: rest =>
    if c == '=' then
      if 2 ≤ letters && 4 ≤ letters + signs + 1 then some []
      else decodeFrom letters left (if 2 ≤ letters then signs + 1 else signs) rest
    else
      match bits? c with
      | none => decodeFrom letters left signs rest
      | some bits =>
        let byte (high low : Nat) : UInt8 := UInt8.ofNat (high + low)
        match letters with
        | 0 => decodeFrom 1 bits 0 rest
        | 1 => (decodeFrom 2 (bits % 16) 0 rest).map (byte (left * 4) (bits / 16) :: ·)
        | 2 => (decodeFrom 3 (bits % 4) 0 rest).map (byte (left * 16) (bits / 4) :: ·)
        | _ => (decodeFrom 0 0 0 rest).map (byte (left * 64) bits :: ·)

/-- The bytes of a text of ASCII characters. -/
def decode (text : List Char) : Option (List UInt8) :=
  if text.all fun c => c.toNat < 0x80 then decodeFrom 0 0 0 text else none

end SdlAssembly.Yaml.Binary
