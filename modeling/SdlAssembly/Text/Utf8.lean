/-!
# UTF-8

Strict decoding of bytes. A fault tells the bytes that stop the reading: those of the sequence up to
the first byte that cannot follow.
-/

namespace SdlAssembly.Text.Utf8

/-! ## Faults -/

inductive Reason where
  | invalidStart
  | invalidContinuation
  | unexpectedEnd
  deriving Repr, BEq, DecidableEq

def Reason.text : Reason → String
  | invalidStart => "invalid start byte"
  | invalidContinuation => "invalid continuation byte"
  | unexpectedEnd => "unexpected end of data"

/-- The offset, the number and the first of the bytes that cannot be read. -/
structure Fault where
  start : Nat
  length : Nat
  byte : UInt8
  reason : Reason
  deriving Repr, BEq, DecidableEq

/-- A byte in two hexadecimal digits. -/
def byteText (byte : UInt8) : String :=
  let digits := Nat.toDigits 16 byte.toNat
  String.ofList (List.replicate (2 - digits.length) '0' ++ digits)

def Fault.message (fault : Fault) : String :=
  let what :=
    if fault.length = 1 then
      "byte 0x" ++ byteText fault.byte ++ " in position " ++ toString fault.start
    else
      "bytes in position " ++ toString fault.start ++ "-"
        ++ toString (fault.start + fault.length - 1)
  "'utf-8' codec can't decode " ++ what ++ ": " ++ fault.reason.text

/-! ## Decoding -/

/-- The number of bytes after a first byte, and the bits that it gives. -/
def lead? (byte : UInt8) : Option (Nat × Nat) :=
  let n := byte.toNat
  if n < 0x80 then some (0, n)
  else if n < 0xC2 then none
  else if n < 0xE0 then some (1, n - 0xC0)
  else if n < 0xF0 then some (2, n - 0xE0)
  else if n < 0xF5 then some (3, n - 0xF0)
  else none

/-- Whether a byte can follow the first byte of a sequence; not every one makes a character. -/
def followsLead (lead byte : UInt8) : Bool :=
  let n := byte.toNat
  let least := if lead == 0xE0 then 0xA0 else if lead == 0xF0 then 0x90 else 0x80
  let greatest := if lead == 0xED then 0x9F else if lead == 0xF4 then 0x8F else 0xBF
  least ≤ n && n ≤ greatest

def isContinuation (byte : UInt8) : Bool := 0x80 ≤ byte.toNat && byte.toNat ≤ 0xBF

/-- The bytes of a sequence after the first that can be read, up to a number of them. -/
def following (lead : UInt8) (count : Nat) (rest : List UInt8) : List UInt8 :=
  match rest with
  | [] => []
  | second :: more =>
    if count = 0 || !followsLead lead second then []
    else second :: (more.take (count - 1)).takeWhile isContinuation

/-- The character of the first bits and the bytes after them. -/
def character (bits : Nat) (tail : List UInt8) : Char :=
  Char.ofNat (tail.foldl (fun n byte => n * 64 + (byte.toNat - 0x80)) bits)

/-- Decodes bytes that start at an offset; `fuel` is their number. -/
def decodeFrom : (fuel : Nat) → (offset : Nat) → List UInt8 → Except Fault (List Char)
  | 0, _, _ => .ok []
  | _, _, [] => .ok []
  | fuel + 1, offset, first :: rest =>
    match lead? first with
    | none => .error ⟨offset, 1, first, .invalidStart⟩
    | some (count, bits) =>
      let tail := following first count rest
      if tail.length < count then
        let reason := if tail.length = rest.length then .unexpectedEnd else .invalidContinuation
        .error ⟨offset, tail.length + 1, first, reason⟩
      else
        (decodeFrom fuel (offset + count + 1) (rest.drop count)).map (character bits tail :: ·)

/-- The characters of bytes. -/
def decode (bytes : List UInt8) : Except Fault (List Char) := decodeFrom bytes.length 0 bytes

/-- The characters of a part of some bytes, and the bytes at its end that others have to follow; after
the last part nothing follows. -/
def decodePart (last : Bool) (bytes : List UInt8) : Except Fault (List Char × List UInt8) :=
  match decode bytes with
  | .ok chars => .ok (chars, [])
  | .error fault =>
    if fault.reason == .unexpectedEnd && !last then
      (decode (bytes.take fault.start)).map fun chars => (chars, bytes.drop fault.start)
    else .error fault

/-! ## Line ends -/

/-- Makes every line end a line feed. -/
def joinLineEnds : List Char → List Char
  | [] => []
  | '\r' :: '\n' :: rest => '\n' :: joinLineEnds rest
  | '\r' :: rest => '\n' :: joinLineEnds rest
  | c :: rest => c :: joinLineEnds rest

end SdlAssembly.Text.Utf8
