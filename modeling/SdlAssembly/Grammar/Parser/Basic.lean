import SdlAssembly.Grammar.Fault
import SdlAssembly.Grammar.Lexer
import SdlAssembly.Grammar.Tree

/-!
# Parsing tokens

A parser reads tokens off the front of a list and gives back what is left. The current token is the
first of the list; moving on to a token that is a fault fails with that fault.
-/

namespace SdlAssembly.Grammar

open Text

/-- A fault and the offset where it shows. -/
structure FaultAt where
  fault : SyntaxFault
  offset : Nat
  deriving Repr, BEq, DecidableEq

abbrev Parser := StateT (List Token) (Except FaultAt)

namespace Parser

/-! ## The current token -/

/-- What a parser sees when no token is left. -/
def noToken : Token := ⟨.endOfText, 0, none⟩

def current : Parser Token := fun tokens =>
  match tokens with
  | [] => .ok (noToken, tokens)
  | token :: _ => .ok (token, tokens)

/-- The token after the current one. -/
def upcoming : Parser Token := fun tokens =>
  match tokens with
  | _ :: ⟨.fault e, offset, _⟩ :: _ => .error ⟨.lexical e, offset⟩
  | _ :: token :: _ => .ok (token, tokens)
  | [token] => .ok (token, tokens)
  | [] => .ok (noToken, tokens)

def failAt (token : Token) (fault : SyntaxFault) : Parser α := fun _ => .error ⟨fault, token.offset⟩

/-- Fails at a token that nothing can start with. -/
def unexpected (token : Token) : Parser α := failAt token (.unexpected token.lexeme)

/-- Takes the current token; the last one stays. -/
def advance : Parser Token := fun tokens =>
  match tokens with
  | token :: ⟨.fault e, offset, _⟩ :: _ => let _ := token; .error ⟨.lexical e, offset⟩
  | token :: next :: rest => .ok (token, next :: rest)
  | [token] => .ok (token, tokens)
  | [] => .ok (noToken, tokens)

/-- Fails if already the first token is a fault. -/
def start : Parser Unit := fun tokens =>
  match tokens with
  | ⟨.fault e, offset, _⟩ :: _ => .error ⟨.lexical e, offset⟩
  | _ => .ok ((), tokens)

/-! ## Single tokens -/

/-- Whether the current token is a punctuator. -/
def sees (p : Punctuator) : Parser Bool := do
  return (← current).lexeme == .punctuator p

/-- Takes a punctuator, which must come. -/
def expect (p : Punctuator) : Parser Unit := do
  let token ← current
  if token.lexeme == .punctuator p then discard advance
  else failAt token (.expected ("'" ++ p.text ++ "'") token.lexeme)

/-- Takes a punctuator if it comes, and says whether it did. -/
def skip (p : Punctuator) : Parser Bool := do
  if ← sees p then
    discard advance
    return true
  else return false

/-- Takes a name, which must come. -/
def name : Parser String := do
  let token ← current
  match token.lexeme with
  | .name text =>
    discard advance
    return text
  | found => failAt token (.expected "Name" found)

/-- Whether the current token is a name. -/
def seesName : Parser Bool := do
  match (← current).lexeme with
  | .name _ => return true
  | _ => return false

/-- Takes a name of one text, which must come. -/
def keyword (text : String) : Parser Unit := do
  let token ← current
  if token.lexeme == .name text then discard advance
  else failAt token (.expected ("'" ++ text ++ "'") token.lexeme)

/-- Takes a name of one text if it comes, and says whether it did. -/
def skipKeyword (text : String) : Parser Bool := do
  if (← current).lexeme == .name text then
    discard advance
    return true
  else return false

/-- Takes the end of the text, which must come. -/
def endOfText : Parser Unit := do
  let token ← current
  match token.lexeme with
  | .endOfText => return ()
  | found => failAt token (.expected "<EOF>" found)

/-! ## Sequences -/

/-- Items up to a closing punctuator. Every item takes a token, so the tokens that are left, given
as `bound`, are enough to count them. -/
def itemsUpTo (close : Punctuator) (item : Parser α) : (bound : List Token) → Parser (List α)
  | [] => do unexpected (← current)
  | _ :: bound => do
    let first ← item
    if ← skip close then return [first]
    else return first :: (← itemsUpTo close item bound)

/-- The tokens that are left and one more. -/
def bound : Parser (List Token) := do return noToken :: (← get)

/-- One item or more between two punctuators. -/
def many (opening close : Punctuator) (item : Parser α) : Parser (List α) := do
  expect opening
  itemsUpTo close item (← bound)

/-- As `many`, and no item if the opening punctuator does not come. -/
def optionalMany (opening close : Punctuator) (item : Parser α) : Parser (List α) := do
  if ← sees opening then many opening close item else return []

/-- Any number of items between two punctuators. -/
def anyNumber (opening close : Punctuator) (item : Parser α) : Parser (List α) := do
  expect opening
  if ← skip close then return []
  itemsUpTo close item (← bound)

/-- Items that a separator follows, counted by `bound`. -/
def separatedUpTo (separator : Punctuator) (item : Parser α) :
    (bound : List Token) → Parser (List α)
  | [] => do unexpected (← current)
  | _ :: bound => do
    let first ← item
    if ← skip separator then return first :: (← separatedUpTo separator item bound)
    else return [first]

/-- One item or more with separators between them and optionally one before the first. -/
def separated (separator : Punctuator) (item : Parser α) : Parser (List α) := do
  discard (skip separator)
  separatedUpTo separator item (← bound)

/-- Items as long as a punctuator that starts one comes, counted by `bound`. -/
def whileUpTo (starts : Punctuator) (item : Parser α) : (bound : List Token) → Parser (List α)
  | [] => return []
  | _ :: bound => do
    if ← sees starts then return (← item) :: (← whileUpTo starts item bound)
    else return []

/-- Items as long as a punctuator that starts one comes. -/
def whileSees (starts : Punctuator) (item : Parser α) : Parser (List α) := do
  whileUpTo starts item (← bound)

/-! ## Whole texts -/

/-- Reads a source to its end. -/
def readAll (parser : Parser α) (source : Source) (located : Bool) : Except SyntaxError α :=
  match StateT.run (start *> parser) (Lexer.tokens source located) with
  | .ok (a, _) => .ok a
  | .error ⟨fault, offset⟩ => .error ⟨fault, ⟨source, offset⟩⟩

end Parser

end SdlAssembly.Grammar
