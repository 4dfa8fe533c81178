import SdlAssembly.Text.Quoted
import SdlAssembly.Text.Source

/-!
# Tokens

The words of the language. A text that stops being made of words ends its tokens with a fault, so
that a reader meets the fault only when it gets there.
-/

namespace SdlAssembly.Grammar

open Text

/-! ## Punctuators -/

inductive Punctuator where
  | bang | dollar | ampersand | parenOpen | parenClose | spread | colon | equals | atSign
  | bracketOpen | bracketClose | braceOpen | pipe | braceClose
  deriving Repr, BEq, ReflBEq, LawfulBEq, DecidableEq

/-- The written form of a punctuator. -/
def Punctuator.text : Punctuator → String
  | bang => "!"
  | dollar => "$"
  | ampersand => "&"
  | parenOpen => "("
  | parenClose => ")"
  | spread => "..."
  | colon => ":"
  | equals => "="
  | atSign => "@"
  | bracketOpen => "["
  | bracketClose => "]"
  | braceOpen => "\x7b"
  | pipe => "|"
  | braceClose => "\x7d"

/-- The punctuator of one character. -/
def Punctuator.ofChar? (c : Char) : Option Punctuator :=
  match c with
  | '!' => some bang
  | '$' => some dollar
  | '&' => some ampersand
  | '(' => some parenOpen
  | ')' => some parenClose
  | ':' => some colon
  | '=' => some equals
  | '@' => some atSign
  | '[' => some bracketOpen
  | ']' => some bracketClose
  | '{' => some braceOpen
  | '|' => some pipe
  | '}' => some braceClose
  | _ => none

/-! ## Faults of a text -/

/-- How a character, or the end of the text, is shown. -/
def showFound : Option Char → String
  | none => "<EOF>"
  | some c =>
    if c = '"' then "'\"'"
    else if 0x20 ≤ c.toNat ∧ c.toNat ≤ 0x7E then "'" ++ c.toString ++ "'"
    else "U+" ++ String.ofList (Quoted.hexCode c.toNat)

/-- Why a text is not made of words. -/
inductive LexicalFault where
  | unexpectedCharacter (c : Char)
  | singleQuote
  | digitAfterZero (found : Option Char)
  | expectedDigit (found : Option Char)
  | unterminatedString
  | invalidEscape (shown : String)
  | invalidUnicodeEscape (shown : String)
  deriving Repr, BEq, ReflBEq, LawfulBEq, DecidableEq

def LexicalFault.message : LexicalFault → String
  | unexpectedCharacter c => "Unexpected character: " ++ showFound (some c) ++ "."
  | singleQuote =>
    "Unexpected single quote character ('), did you mean to use a double quote (\")?"
  | digitAfterZero found =>
    "Invalid number, unexpected digit after 0: " ++ showFound found ++ "."
  | expectedDigit found => "Invalid number, expected digit but got: " ++ showFound found ++ "."
  | unterminatedString => "Unterminated string."
  | invalidEscape shown => "Invalid character escape sequence: '" ++ shown ++ "'."
  | invalidUnicodeEscape shown => "Invalid Unicode escape sequence: '" ++ shown ++ "'."

/-! ## Tokens -/

/-- What a token is, apart from its place. -/
inductive Lexeme where
  | punctuator (p : Punctuator)
  | name (text : String)
  | int (text : String)
  | float (text : String)
  | string (text : String) (block : Bool)
  | endOfText
  | fault (fault : LexicalFault)
  deriving Repr, BEq, ReflBEq, LawfulBEq, DecidableEq

/-- How a token is named in a message. -/
def Lexeme.describe : Lexeme → String
  | punctuator p => "'" ++ p.text ++ "'"
  | name text => "Name '" ++ text ++ "'"
  | int text => "Int '" ++ text ++ "'"
  | float text => "Float '" ++ text ++ "'"
  | string text false => "String '" ++ text ++ "'"
  | string text true => "BlockString '" ++ text ++ "'"
  | endOfText | fault _ => "<EOF>"

/-- The text of a token that has one. -/
def Lexeme.text? : Lexeme → Option String
  | name text | int text | float text | string text _ => some text
  | punctuator _ | endOfText | fault _ => none

/-- A token, the offset it starts at, and the position that nodes starting at it remember. -/
structure Token where
  lexeme : Lexeme
  offset : Nat
  position : Option Position := none
  deriving Repr, BEq, DecidableEq

end SdlAssembly.Grammar
