import SdlAssembly.Grammar.Token
import SdlAssembly.Text.Block

/-!
# Reading tokens

Between tokens, blanks, commas, line ends, byte order marks and comments are skipped. Every reader
here takes the text that follows and gives back what it read and the text after that.
-/

namespace SdlAssembly.Grammar.Lexer

open Text

/-! ## Classes of characters -/

def isLetter (c : Char) : Bool := ('a' ≤ c && c ≤ 'z') || ('A' ≤ c && c ≤ 'Z')

def isDigit (c : Char) : Bool := '0' ≤ c && c ≤ '9'

def isNameStart (c : Char) : Bool := isLetter c || c == '_'

def isNameChar (c : Char) : Bool := isNameStart c || isDigit c

def isLineEnd (c : Char) : Bool := c == '\n' || c == '\r'

/-- Characters that only separate tokens. -/
def isIgnored (c : Char) : Bool :=
  c == ' ' || c == '\t' || c == ',' || c == '\uFEFF' || isLineEnd c

/-! ## What a reader found -/

/-- A lexeme with the characters it takes up, or a fault with the characters before it. -/
inductive Found where
  | lexeme (lexeme : Lexeme) (length : Nat)
  | fault (fault : LexicalFault) (length : Nat)

/-! ## Names -/

/-- The name at the start of a text that starts with one. -/
def name (cs : List Char) : Found :=
  let text := cs.takeWhile isNameChar
  .lexeme (.name (String.ofList text)) text.length

/-! ## Numbers -/

/-- The digits at the start of a text; there must be one. -/
def digits (cs : List Char) : Except LexicalFault (List Char × List Char) :=
  match cs.takeWhile isDigit with
  | [] => .error (.expectedDigit cs.head?)
  | ds => .ok (ds, cs.dropWhile isDigit)

/-- The digits before the point: a zero stands alone. -/
def wholePart : List Char → Except LexicalFault (List Char × List Char)
  | '0' :: rest =>
    if (rest.head?.map isDigit).getD false then .error (.digitAfterZero rest.head?)
    else .ok (['0'], rest)
  | cs => digits cs

/-- Reads `part` after the characters read so far; a fault lies where its text starts, `skipped`
characters on. -/
def after (read : List Char) (skipped : List Char) (cs : List Char)
    (part : List Char → Except LexicalFault (List Char × List Char)) :
    Except (LexicalFault × Nat) (List Char × List Char) :=
  match part cs with
  | .ok (text, rest) => .ok (read ++ skipped ++ text, rest)
  | .error e =>
    let extra := match e with
      | .digitAfterZero _ => 1
      | _ => 0
    .error (e, (read ++ skipped).length + extra)

/-- The minus sign and the digits before the point. -/
def integerPart (cs : List Char) : Except (LexicalFault × Nat) (List Char × List Char) :=
  match cs with
  | '-' :: rest => after [] ['-'] rest wholePart
  | _ => after [] [] cs wholePart

/-- The point and the digits after it, if the text goes on with a point. -/
def fractionPart (read cs : List Char) :
    Except (LexicalFault × Nat) (Bool × List Char × List Char) :=
  match cs with
  | '.' :: rest => (after read ['.'] rest digits).map (true, ·)
  | _ => .ok (false, read, cs)

/-- The exponent, if the text goes on with one. -/
def exponentPart (read cs : List Char) :
    Except (LexicalFault × Nat) (Bool × List Char × List Char) :=
  match cs with
  | e :: sign :: rest =>
    if e == 'e' || e == 'E' then
      if sign == '+' || sign == '-' then (after read [e, sign] rest digits).map (true, ·)
      else (after read [e] (sign :: rest) digits).map (true, ·)
    else .ok (false, read, cs)
  | [e] =>
    if e == 'e' || e == 'E' then (after read [e] [] digits).map (true, ·)
    else .ok (false, read, cs)
  | [] => .ok (false, read, cs)

/-- A number, whole or not, that no name and no point follows. -/
def number (cs : List Char) : Found :=
  let result : Except (LexicalFault × Nat) (Lexeme × Nat) := do
    let (read, rest) ← integerPart cs
    let (hasPoint, read, rest) ← fractionPart read rest
    let (hasExponent, read, rest) ← exponentPart read rest
    if (rest.head?.map fun c => c == '.' || isNameStart c).getD false then
      throw (.expectedDigit rest.head?, read.length)
    let text := String.ofList read
    return (if hasPoint || hasExponent then .float text else .int text, read.length)
  match result with
  | .ok (lexeme, length) => .lexeme lexeme length
  | .error (fault, length) => .fault fault length

/-! ## Quoted strings -/

/-- The hexadecimal digits of a braced escape, up to the brace that closes it. At most `room` more
characters belong to the escape; `size` of them are read and write the number `point`. -/
def bracedEscape : (room size point : Nat) → List Char → Except Nat (Char × Nat)
  | 0, size, _, _ => .error size
  | _ + 1, size, _, [] => .error size
  | room + 1, size, point, c :: rest =>
    if c == '}' then
      if size + 1 < 5 || !Quoted.isScalar point then .error (size + 1)
      else .ok (Char.ofNat point, size + 1)
    else
      match Quoted.hexValue? c with
      | none => .error (size + 1)
      | some digit => bracedEscape room (size + 1) (point * 16 + digit) rest

/-- An escape of four digits, given by the text after its letter; two of them in a row may write
one character. -/
def fixedEscape (shown : String) (rest : List Char) : Except LexicalFault (Char × Nat) :=
  match Quoted.fourDigits? rest with
  | none => .error (.invalidUnicodeEscape shown)
  | some code =>
    if Quoted.isScalar code then .ok (Char.ofNat code, 6)
    else
      match Quoted.isLeadingSurrogate code, rest.drop 4 with
      | true, '\\' :: 'u' :: more =>
        match (Quoted.fourDigits? more).filter Quoted.isTrailingSurrogate with
        | some trailing => .ok (Quoted.joinSurrogates code trailing, 12)
        | none => .error (.invalidUnicodeEscape shown)
      | _, _ => .error (.invalidUnicodeEscape shown)

/-- The character that an escape stands for and its length; the text starts with a backslash. -/
def escape (cs : List Char) : Except LexicalFault (Char × Nat) :=
  let shown (n : Nat) := String.ofList (cs.take n)
  match cs with
  | _ :: 'u' :: '{' :: rest =>
    match bracedEscape (rest.take 9).length 3 0 rest with
    | .ok found => .ok found
    | .error size => .error (.invalidUnicodeEscape (shown size))
  | _ :: 'u' :: rest => fixedEscape (shown 6) rest
  | _ :: c :: _ =>
    match Quoted.shortEscape? c with
    | some value => .ok (value, 2)
    | none => .error (.invalidEscape (shown 2))
  | _ => .error (.invalidEscape (shown 1))

/-- A quoted string after its first quote: `length` characters are read and `value` holds their
text, the last first. -/
def quoted (value : List Char) (length : Nat) (cs : List Char) : Found :=
  match cs with
  | [] => .fault .unterminatedString length
  | c :: rest =>
    if c == '"' then .lexeme (.string (String.ofList value.reverse) false) (length + 1)
    else if c == '\\' then
      match escape (c :: rest) with
      | .error e => .fault e length
      | .ok (value', size) => quoted (value' :: value) (length + size) (rest.drop (size - 1))
    else if isLineEnd c then .fault .unterminatedString length
    else quoted (c :: value) (length + 1) rest
termination_by cs.length
decreasing_by
  all_goals simp only [List.length_cons, List.length_drop]; omega

/-! ## Block strings -/

/-- A block string after its opening quotes: `done` and `line` hold its lines and the line being
read, the last first. -/
def block (done : List (List Char)) (line : List Char) (length : Nat) : List Char → Found
  | [] => .fault .unterminatedString length
  | '"' :: '"' :: '"' :: _ =>
    let text := Block.dedent (line.reverse :: done).reverse
    .lexeme (.string (String.ofList text) true) (length + 3)
  | '\\' :: '"' :: '"' :: '"' :: rest =>
    block done ('"' :: '"' :: '"' :: line) (length + 4) rest
  | '\r' :: '\n' :: rest => block (line.reverse :: done) [] (length + 2) rest
  | '\r' :: rest => block (line.reverse :: done) [] (length + 1) rest
  | '\n' :: rest => block (line.reverse :: done) [] (length + 1) rest
  | c :: rest => block done (c :: line) (length + 1) rest

/-! ## Tokens -/

/-- The token at the start of a text that does not start with something to skip. -/
def lexeme (cs : List Char) : Found :=
  match cs with
  | [] => .lexeme .endOfText 0
  | '"' :: '"' :: '"' :: rest => block [] [] 3 rest
  | '"' :: rest => quoted [] 1 rest
  | '.' :: '.' :: '.' :: _ => .lexeme (.punctuator .spread) 3
  | c :: _ =>
    match Punctuator.ofChar? c with
    | some p => .lexeme (.punctuator p) 1
    | none =>
      if isDigit c || c == '-' then number cs
      else if isNameStart c then name cs
      else if c == '\'' then .fault .singleQuote 0
      else .fault (.unexpectedCharacter c) 0

/-- The length of what is skipped before the next token. -/
def skipped (cs : List Char) : Nat :=
  match cs with
  | [] => 0
  | '#' :: rest =>
    let comment := rest.takeWhile fun c => !isLineEnd c
    1 + comment.length + skipped (rest.drop comment.length)
  | c :: rest => if isIgnored c then 1 + skipped rest else 0
termination_by cs.length
decreasing_by
  all_goals simp only [List.length_cons, List.length_drop]; omega

/-- The tokens of a text from an offset on, the last of them the end of the text or a fault. Every
token takes a character, so the characters, given as `bound`, are enough to count them. -/
def tokensFrom (mark : Nat → Option Position) :
    (bound : List Char) → (offset : Nat) → List Char → List Token
  | [], _, _ => []
  | _ :: bound, offset, cs =>
    let blank := skipped cs
    let start := offset + blank
    let rest := cs.drop blank
    match lexeme rest with
    | .fault e length => [⟨.fault e, start + length, none⟩]
    | .lexeme .endOfText _ => [⟨.endOfText, start, mark start⟩]
    | .lexeme l length =>
      ⟨l, start, mark start⟩ :: tokensFrom mark bound (start + length) (rest.drop length)

/-- The tokens of a source. The end of the text is a token too. -/
def tokens (source : Source) (located : Bool) : List Token :=
  let mark (offset : Nat) : Option Position := if located then some ⟨source, offset⟩ else none
  let cs := source.body.toList
  tokensFrom mark (' ' :: cs) 0 cs

end SdlAssembly.Grammar.Lexer
