import SdlAssembly.Text.Source

/-!
# Block strings

A block string stands between triple quotes over any number of lines. The indentation that its
lines share and the blank lines around it are not part of its text.
-/

namespace SdlAssembly.Text.Block

/-! ## Reading -/

/-- The characters that count as indentation. -/
def isIndent (c : Char) : Bool := c == ' ' || c == '\t'

/-- A line of nothing but indentation. -/
def isBlank (line : List Char) : Bool := line.all isIndent

/-- The length of the indentation of a line. -/
def indentOf (line : List Char) : Nat := (line.takeWhile isIndent).length

/-- The least indentation among the lines that are not blank. -/
def commonIndent (lines : List (List Char)) : Option Nat :=
  ((lines.filter fun line => !isBlank line).map indentOf).min?

/-- Takes the shared indentation off all lines. -/
def unindent (lines : List (List Char)) : List (List Char) :=
  let common := commonIndent lines
  lines.map fun line => line.drop (common.getD line.length)

/-- Takes the blank lines off both ends. -/
def trimBlank (lines : List (List Char)) : List (List Char) :=
  ((lines.dropWhile isBlank).reverse.dropWhile isBlank).reverse

/-- Joins lines by line feeds. -/
def join : List (List Char) → List Char
  | [] => []
  | [line] => line
  | line :: others => line ++ '\n' :: join others

/-- The text of a block string, from the lines between its quotes; the first line keeps its
indentation. -/
def dedent : List (List Char) → List Char
  | [] => []
  | first :: others => join (trimBlank (first :: unindent others))

/-! ## Writing -/

/-- The text as it stands between triple quotes: three quotes are written with a backslash. -/
def escapeQuotes : List Char → List Char
  | '"' :: '"' :: '"' :: rest => '\\' :: '"' :: '"' :: '"' :: escapeQuotes rest
  | c :: rest => c :: escapeQuotes rest
  | [] => []

/-- A text this long is set off on lines of its own. -/
def longestInline : Nat := 70

def endsIn (suffix text : List Char) : Bool := suffix.isSuffixOf text

/-- Whether a text is written on one line. -/
def isSingle (value : List Char) : Bool := (Text.lines (escapeQuotes value)).length == 1

/-- Whether every line after the first is empty or starts with indentation. -/
def othersIndented (value : List Char) : Bool :=
  ((Text.lines (escapeQuotes value)).drop 1).all fun line =>
    line.isEmpty || (line.take 1).all isIndent

def endsInTriple (value : List Char) : Bool := endsIn ['\\', '"', '"', '"'] (escapeQuotes value)

/-- Whether the end of a text would run into the closing quotes. -/
def runsOn (value : List Char) : Bool :=
  (endsIn ['"'] value && !endsInTriple value) || endsIn ['\\'] value

/-- Whether a text is set off on lines of its own. -/
def isApart (value : List Char) : Bool :=
  !isSingle value || value.length > longestInline || runsOn value
    || (!isSingle value && othersIndented value) || endsInTriple value

/-- Whether a line feed stands before a text. A single line that starts with indentation, which
would be taken for that of the block, has none. -/
def breaksBefore (value : List Char) : Bool :=
  (isApart value && !(isSingle value && (value.take 1).all isIndent))
    || (!isSingle value && othersIndented value)

/-- Whether a line feed stands after a text. -/
def breaksAfter (value : List Char) : Bool := isApart value || runsOn value

/-- A text in its triple quotes. It is set off on lines of its own if it has several lines or is
long, and a line feed keeps its end apart from the closing quotes where it ends in a quote or a
backslash. -/
def quote (text : String) : String :=
  let value := text.toList
  "\"\"\"" ++ (if breaksBefore value then "\n" else "") ++ String.ofList (escapeQuotes value)
    ++ (if breaksAfter value then "\n" else "") ++ "\"\"\""

/-! ## Texts with a written form -/

/-- What the characters read so far say about the lines of a text. -/
structure Scan where
  emptyLine : Bool := true
  indented : Bool := false
  allIndented : Bool := true
  seenLine : Bool := false
  writable : Bool := true

/-- Reads one character. -/
def Scan.step (s : Scan) (c : Char) : Scan :=
  if c == '\n' then
    { s with
      writable := s.writable && !(s.emptyLine && !s.seenLine)
      seenLine := true, emptyLine := true, indented := false }
  else if isIndent c then { s with indented := s.indented || s.emptyLine }
  else if c.toNat ≤ 0x0F then { s with writable := false }
  else { s with allIndented := s.allIndented && s.indented, emptyLine := false }

/-- Whether a text is read back from its block form: it has no control characters, no blank line
at either end and no indentation that all its lines share. -/
def isWritable (text : String) : Bool :=
  text.isEmpty ||
    let s := text.toList.foldl Scan.step {}
    s.writable && !s.emptyLine && !(s.allIndented && s.seenLine)

end SdlAssembly.Text.Block
