import SdlAssembly.Text.Supply
import SdlAssembly.Yaml.Token

/-!
# Reading positions

A place in a text of a configuration, and the classes of characters that tokens depend on. Line ends
are line feeds, next-line characters and the line and paragraph separators. The text is read in
blocks as far as its characters are looked at, so a fault of the reading shows only to those who
look that far.
-/

namespace SdlAssembly.Yaml

open Text

/-! ## Characters -/

/-- Whether a text may hold a character. -/
def isAllowed (c : Char) : Bool :=
  let n := c.toNat
  n == 0x09 || n == 0x0A || n == 0x0D || (0x20 ≤ n && n ≤ 0x7E) || n == 0x85
    || (0xA0 ≤ n && n ≤ 0xD7FF) || (0xE000 ≤ n && n ≤ 0xFFFD) || 0x10000 ≤ n

def byteOrderMark : Char := '\ufeff'

def isBreak (c : Char) : Bool :=
  c == '\n' || c == '\r' || c == '\u0085' || c == '\u2028' || c == '\u2029'

def isBlank (c : Char) : Bool := c == ' ' || c == '\t'

/-- Whether a line ends before what may be a character. -/
def endsLine (c : Option Char) : Bool := (c.map isBreak).getD true

/-- Whether a word ends at what may be a character; a tab does not end it. -/
def endsWord (c : Option Char) : Bool := (c.map fun c => c == ' ' || isBreak c).getD true

/-- Whether there is a gap at what may be a character. -/
def isGap (c : Option Char) : Bool := (c.map fun c => isBlank c || isBreak c).getD true

/-- The characters of names. -/
def isNameChar (c : Char) : Bool := c.isAlphanum || c == '-' || c == '_'

/-- The line end that a character stands for in a scalar. -/
def lineEnd (c : Char) : Char := if c == '\u2028' || c == '\u2029' then c else '\n'

/-! ## Blocks -/

/-- The number of characters that are asked for at once. -/
def blockSize : Nat := 4096

/-- What a number of readings give. -/
def takeBlocks : (count : Nat) → Supply → Except Utf8.Fault (List Char × Supply)
  | 0, s => .ok ([], s)
  | count + 1, s => do
    let (first, s) ← s.take blockSize
    let (more, s) ← takeBlocks count s
    return (first ++ more, s)

/-- The text up to the first block that cannot be read or holds what no text may hold, and the fault
of that block, if there is one. The first block takes `count` readings, and the others one. -/
def blocksFrom : (fuel : Nat) → (count : Nat) → Supply → List Char × Option Fault
  | 0, _, _ => ([], none)
  | fuel + 1, count, s =>
    match takeBlocks count s with
    | .error fault => ([], some (.undecodable fault))
    | .ok ([], _) => ([], none)
    | .ok (block, s) =>
      if block.all isAllowed then
        let (text, fault) := blocksFrom fuel 1 s
        (block ++ text, fault)
      else ([], some .malformed)

/-- What can be read of bytes, and the fault behind it, if there is one. -/
def readable (bytes : List UInt8) : List Char × Option Fault :=
  blocksFrom (bytes.length + 1) 2 { bytes := bytes }

/-! ## Positions -/

/-- What can be read of the rest of a text, the fault behind it, and how far it is read. Without a
fault the text ends there. -/
structure Cursor where
  rest : List Char
  beyond : Option Fault := none
  index : Nat := 0
  line : Nat := 0
  column : Nat := 0
  deriving Repr, BEq, Inhabited

/-- The place after one character; a byte order mark takes no column. -/
def Cursor.step (c : Cursor) : Cursor :=
  match c.rest with
  | [] => c
  | d :: rest =>
    if isBreak d then ⟨rest, c.beyond, c.index + 1, c.line + 1, 0⟩
    else ⟨rest, c.beyond, c.index + 1, c.line,
      if d == byteOrderMark then c.column else c.column + 1⟩

/-- The place after a number of characters. -/
def Cursor.skip (c : Cursor) : Nat → Cursor
  | 0 => c
  | n + 1 => c.step.skip n

/-- A step over a text. -/
abbrev Scan := StateT Cursor (Except Fault)

/-- Looks at a number of characters. Those after the end of a text can be looked at too. -/
def look (count : Nat) : Scan Unit := do
  let c ← get
  if let some fault := c.beyond then
    if count != 0 && (c.rest.drop (count - 1)).isEmpty then throw fault

/-- The character at a place; there is none at the end of the text. -/
def peek (ahead : Nat := 0) : Scan (Option Char) := do
  look (ahead + 1)
  return (← get).rest[ahead]?

/-- Goes on over characters, and looks at the next one. -/
def forward (count : Nat := 1) : Scan Unit := do
  look (count + 1)
  modify fun c => c.skip count

/-- Goes on over the characters up to the first that fails a test. -/
def span (test : Char → Bool) : Scan (List Char) := do
  let taken := (← get).rest.takeWhile test
  forward taken.length
  return taken

/-- A number that the characters which are left do not reach. -/
def bound : Scan Nat := return (← get).rest.length + 1

/-- Goes on over spaces. -/
def skipSpaces : Scan Unit := do
  let _ ← span (· == ' ')

/-- Goes on up to the end of the line. -/
def skipLine : Scan Unit := do
  let _ ← span fun d => !isBreak d

/-- Goes on over a comment, if there is one. -/
def skipComment : Scan Unit := do
  if (← peek) == some '#' then skipLine

/-- Goes on over a line end, if there is one. -/
def lineBreak? : Scan (Option Char) := do
  match ← peek with
  | none => return none
  | some d =>
    if !isBreak d then return none
    forward
    return some (lineEnd d)

/-- Whether a mark between documents stands here. -/
def isDocumentMark : Scan Bool := do
  look 3
  let start := (← get).rest.take 3
  if start == ['-', '-', '-'] || start == ['.', '.', '.'] then return isGap (← peek 3)
  else return false

/-- Goes on over the rest of a line that holds nothing but a comment. -/
def restOfLine : Scan Unit := do
  skipSpaces
  skipComment
  if !endsLine (← peek) then throw .malformed
  let _ ← lineBreak?

end SdlAssembly.Yaml
