import SdlAssembly.Text.Printable
import SdlAssembly.Text.Space

/-!
# Tokens of handlers

The names, literals and signs of the parameters of a handler, and what can be wrong with them.
-/

namespace SdlAssembly.Console.Handler

open Text

/-! ## Faults -/

/-- Why a text is no expression. -/
inductive SyntaxFault where
  | invalid
  | missingComma
  /-- An equals sign follows a name or, where it is told, a literal. -/
  | assigned (toLiteral : Bool)
  /-- An equals sign follows what is no name of an argument. -/
  | assignedArgument
  /-- A string follows one of the other kind. -/
  | mixedStrings
  | missingColon
  | missingValue
  | neverClosed (opening : Char)
  | unmatched (closing : Char)
  /-- A bracket closes another one, whose line is told if it is not the same. -/
  | mismatched (closing opening : Char) (line : Option Nat)
  | unterminated (line : Nat)
  | unterminatedBlock (line : Nat)
  | wrongNumber
  | strayBackslash
  | wrongCharacter (c : Char)
  deriving Repr, BEq, DecidableEq

/-- The number of a character, in four digits at least. -/
def codePoint (c : Char) : String :=
  let digits := (Nat.toDigits 16 c.toNat).map Char.toUpper
  "U+" ++ String.ofList (List.replicate (4 - digits.length) '0' ++ digits)

def SyntaxFault.message : SyntaxFault → String
  | invalid => "invalid syntax"
  | missingComma => "invalid syntax. Perhaps you forgot a comma?"
  | assigned false => "invalid syntax. Maybe you meant '==' or ':=' instead of '='?"
  | assigned true => "cannot assign to literal here. Maybe you meant '==' instead of '='?"
  | assignedArgument => "expression cannot contain assignment, perhaps you meant \"==\"?"
  | mixedStrings => "cannot mix bytes and nonbytes literals"
  | missingColon => "':' expected after dictionary key"
  | missingValue => "expression expected after dictionary key and ':'"
  | neverClosed opening => "'" ++ opening.toString ++ "' was never closed"
  | unmatched closing => "unmatched '" ++ closing.toString ++ "'"
  | mismatched closing opening line =>
    "closing parenthesis '" ++ closing.toString ++ "' does not match opening parenthesis '"
      ++ opening.toString ++ "'" ++ match line with
        | some line => " on line " ++ toString line
        | none => ""
  | unterminated line => "unterminated string literal (detected at line " ++ toString line ++ ")"
  | unterminatedBlock line =>
    "unterminated triple-quoted string literal (detected at line " ++ toString line ++ ")"
  | wrongNumber => "invalid decimal literal"
  | strayBackslash => "unexpected character after line continuation character"
  | wrongCharacter c =>
    if Printable.isPrintable c.toNat then
      "invalid character '" ++ c.toString ++ "' (" ++ codePoint c ++ ")"
    else "invalid non-printable character " ++ codePoint c

/-! ## Characters -/

/-- Signs and punctuation above the ASCII range, which are in no name. -/
def symbols : List (Nat × Nat) :=
  [(0xA1, 0xA9), (0xAB, 0xB4), (0xB6, 0xB9), (0xBB, 0xBF), (0xD7, 0xD7), (0xF7, 0xF7),
    (0x2010, 0x203E), (0x2041, 0x2053), (0x2055, 0x2070), (0x20A0, 0x20CF), (0x2190, 0x245F),
    (0x2500, 0x2BFF), (0x3001, 0x3004), (0x3008, 0x3020), (0xFF01, 0xFF0F), (0xFF1A, 0xFF20),
    (0x1F000, 0x1FAFF)]

/-- Whether a character may be in a name. -/
def isInName (c : Char) : Bool :=
  if c.toNat < 0x80 then c.isAlphanum || c == '_'
  else Printable.isPrintable c.toNat && !inRanges symbols c.toNat

/-- Whether a character goes on with a word, be it fit for a name or not. -/
def isInWord (c : Char) : Bool := c.isAlphanum || c == '_' || 0x80 ≤ c.toNat

/-! ## Tokens -/

inductive Token where
  | name (text : String)
  | number
  | text (isBytes : Bool)
  | sign (text : String)
  deriving Repr, BEq, DecidableEq

/-- The signs of more than one character, the longest first. -/
def longSigns : List String :=
  ["...", "**=", "//=", ">>=", "<<=", "->", ":=", "==", "!=", "<=", ">=", "<<", ">>", "**", "//",
    "+=", "-=", "*=", "/=", "%=", "&=", "|=", "^=", "@="]

/-- The letters that may stand before a quote. -/
def textMarks : List String := ["r", "b", "u", "f", "br", "rb", "fr", "rf"]

/-- What follows a string whose opening quote is read. -/
def takeString? (quote : Char) : List Char → Option (List Char)
  | [] => none
  | ['\\'] => none
  | '\\' :: _ :: rest => takeString? quote rest
  | c :: rest =>
    if c == quote then some rest else if c == '\n' then none else takeString? quote rest

/-- What follows a string in three quotes, whose opening quotes are read. -/
def takeBlock? (quote : Char) : List Char → Option (List Char)
  | [] => none
  | ['\\'] => none
  | '\\' :: _ :: rest => takeBlock? quote rest
  | c :: rest =>
    if c == quote && [quote, quote].isPrefixOf rest then some (rest.drop 2)
    else takeBlock? quote rest

def lineFeeds (text : List Char) : Nat := text.count '\n'

/-- What follows a string that starts with a quote on a line. -/
def afterQuote (quote : Char) (line : Nat) (rest : List Char) : Except SyntaxFault (List Char) :=
  if [quote, quote].isPrefixOf rest then
    match takeBlock? quote (rest.drop 2) with
    | some rest => .ok rest
    | none => .error (.unterminatedBlock (line + lineFeeds rest))
  else
    match takeString? quote rest with
    | some rest => .ok rest
    | none => .error (.unterminated line)

/-- Digits with single underscores between them, and what follows them. -/
def takeDigits : List Char → List Char × List Char
  | '_' :: d :: rest =>
    if d.isDigit then
      let (digits, after) := takeDigits rest
      (d :: digits, after)
    else ([], '_' :: d :: rest)
  | d :: rest =>
    if d.isDigit then
      let (digits, after) := takeDigits rest
      (d :: digits, after)
    else ([], d :: rest)
  | [] => ([], [])

/-- What follows an exponent, if there is one. -/
def afterExponent (text : List Char) : List Char :=
  match text with
  | e :: rest =>
    let unsigned := match rest with
      | '+' :: more | '-' :: more => more
      | _ => rest
    if e.toLower == 'e' && (unsigned.head?.map Char.isDigit).getD false then
      (takeDigits unsigned).2
    else text
  | [] => []

/-- Words that may follow a number without a blank. -/
def numberFollowers : List String := ["and", "else", "for", "if", "in", "is", "not", "or"]

/-- What follows a number. Letters may do so only as one of some words. -/
def afterNumber (text : List Char) : Except SyntaxFault (List Char) :=
  let rest := (takeDigits text).2
  let rest := match rest with
    | '.' :: more => (takeDigits more).2
    | _ => rest
  let rest := match afterExponent rest with
    | j :: more => if j.toLower == 'j' then more else j :: more
    | [] => []
  let word := rest.takeWhile isInWord
  let isLetter := (word.head?.map fun c => decide (c.toNat < 0x80)).getD false
  if isLetter && !numberFollowers.contains (String.ofList word) then .error .wrongNumber
  else .ok rest

/-- Whether a string starts here: whether it is one of bytes, its quote, and what follows it. -/
def stringStart? (text : List Char) : Option (Bool × Char × List Char) :=
  let mark := text.takeWhile isInWord
  let name := (String.ofList mark).toLower
  match text.drop mark.length with
  | quote :: rest =>
    if (quote == '"' || quote == '\'') && (mark.isEmpty || textMarks.contains name) then
      some (name.contains 'b', quote, rest)
    else none
  | [] => none

def startsNumber : List Char → Bool
  | '.' :: c :: _ => c.isDigit
  | c :: _ => c.isDigit
  | [] => false

/-- A word, if all its characters are fit for a name. -/
def nameOf (word : List Char) : Except SyntaxFault Token :=
  match word.find? fun c => !isInName c with
  | some c => .error (.wrongCharacter c)
  | none => .ok (.name (String.ofList word))

/-- The sign at the start of a text. -/
def signAt (c : Char) (rest : List Char) : String :=
  (longSigns.find? fun sign => sign.toList.isPrefixOf (c :: rest)).getD c.toString

/-- The first token of a text on a line, if it starts with one, and what follows it. At the end of a
line a backslash goes on with it. -/
def takeToken (line : Nat) : List Char → Except SyntaxFault (Option Token × List Char)
  | [] => .ok (none, [])
  | c :: rest =>
    if c == ' ' || c == '\t' || c == '\x0C' then .ok (none, rest)
    else if c == '#' then .ok (none, rest.dropWhile (· != '\n'))
    else if c == '\\' && rest.head? == some '\n' then .ok (none, rest.drop 1)
    else if startsNumber (c :: rest) then do
      return (some .number, ← afterNumber (c :: rest))
    else
      match stringStart? (c :: rest) with
      | some (isBytes, quote, rest) => do
        return (some (.text isBytes), ← afterQuote quote line rest)
      | none =>
        if isInWord c then do
          let word := (c :: rest).takeWhile isInWord
          return (some (← nameOf word), (c :: rest).drop word.length)
        else
          let sign := signAt c rest
          .ok (some (.sign sign), (c :: rest).drop sign.length)

/-! ## Brackets -/

/-- A bracket that is open, and its line. -/
structure Opening where
  bracket : Char
  line : Nat
  deriving Repr, BEq, DecidableEq

/-- The bracket that closes another one. -/
def closing : Char → Char
  | '(' => ')'
  | _ => '\x7d'

/-- The brackets that are open after a token on a line, the innermost first. -/
def track (line : Nat) (opened : List Opening) : Token → Except SyntaxFault (List Opening)
  | .sign "(" => .ok (⟨'(', line⟩ :: opened)
  | .sign "\x7b" => .ok (⟨'\x7b', line⟩ :: opened)
  | .sign ")" => close ')'
  | .sign "\x7d" => close '\x7d'
  | _ => .ok opened
where
  close (c : Char) : Except SyntaxFault (List Opening) :=
    match opened with
    | [] => .error (.unmatched c)
    | opening :: others =>
      if closing opening.bracket == c then .ok others
      else
        let place := if opening.line = line then none else some opening.line
        .error (.mismatched c opening.bracket place)

/-- The tokens of a text up to a backslash inside a line, and what is wrong with the text there or
at its end. A line that ends inside a bracket goes on. The fuel is the number of characters. -/
def tokensFrom : (fuel line : Nat) → (opened : List Opening) → List Char →
    Except SyntaxFault (List Token × Option SyntaxFault)
  | 0, _, opened, _ => .ok ([], opened.head?.map fun opening => .neverClosed opening.bracket)
  | fuel + 1, line, opened, text => do
    let (token, rest) ← takeToken line text
    if token == some (.sign "\\") then return ([], some .strayBackslash)
    let opened ← (token.map (track line opened)).getD (.ok opened)
    let (tokens, left) ← tokensFrom fuel (line + (lineFeeds text - lineFeeds rest)) opened rest
    let shown := token.filter fun token => token != .sign "\n" || opened.isEmpty
    return (shown.toList ++ tokens, left)

def tokens (text : List Char) : Except SyntaxFault (List Token × Option SyntaxFault) :=
  tokensFrom text.length 1 [] text

end SdlAssembly.Console.Handler
