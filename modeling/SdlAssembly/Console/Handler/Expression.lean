import SdlAssembly.Console.Handler.Token

/-!
# Expressions of handlers

Whether tokens are an expression, and whether an expression is a literal. Brackets hold elements
between commas, and curly ones keys and values as well. What is in no literal is checked by how
operands and operators follow each other.
-/

namespace SdlAssembly.Console.Handler

/-! ## Places -/

/-- The bracket around a place. -/
inductive Bracket where
  | round
  | call
  /-- It is not known yet whether a curly bracket holds keys. -/
  | curly
  | set
  | key
  | value
  deriving Repr, BEq, DecidableEq

/-- What stands before a place in its element. -/
inductive Place where
  /-- An element may start here, or its bracket may end. -/
  | start
  | operand
  /-- A name has to come after a point. -/
  | member
  /-- An operand ends here. A name or literal may be the whole element so far. -/
  | after (element : Option Token)
  deriving Repr, BEq, DecidableEq

/-- Words that are operands of their own. -/
def constantNames : List String := ["None", "True", "False"]

/-- Words between operands. -/
def operatorNames : List String := ["and", "or", "in", "is", "not"]

/-- Words that are neither names nor operators here. -/
def reservedNames : List String :=
  ["as", "assert", "async", "await", "break", "class", "continue", "def", "del", "elif", "else",
    "except", "finally", "for", "from", "global", "if", "import", "lambda", "nonlocal", "pass",
    "raise", "return", "try", "while", "with", "yield"]

def isKeyword (word : String) : Bool :=
  constantNames.contains word || operatorNames.contains word || reservedNames.contains word

/-- Signs between operands. -/
def operatorSigns : List String :=
  ["+", "-", "*", "/", "|", "&", "<", ">", "%", "^", "@", "==", "!=", "<=", ">=", "<<", ">>",
    "**", "//"]

def isOperator : Token → Bool
  | .sign sign => operatorSigns.contains sign
  | .name word => operatorNames.contains word
  | _ => false

/-- Whether a token is an operand. -/
def isOperand : Token → Bool
  | .name word => constantNames.contains word || !isKeyword word
  | .number | .text _ => true
  | .sign sign => sign == "..."

/-- Whether a token that follows an operand starts another one. -/
def startsOperand (token : Token) : Bool := isOperand token || token == .sign "\x7b"

/-- Names that may also start what is no expression. -/
def ambiguousNames : List String := ["_", "case", "match"]

/-- Whether a comma is asked for between an element and the token after it. -/
def lacksComma (element : Option Token) (token : Token) : Bool :=
  match element, token with
  | some (.name word), .text _ => constantNames.contains word
  | some (.name word), _ => !ambiguousNames.contains word
  | _, _ => true

/-! ## Checking -/

/-- Whether an operand may come here, and where it leads. -/
def operandStep (brackets : List Bracket) (isStart : Bool) (token : Token) :
    Except SyntaxFault (List Bracket × Place) :=
  let element := if isStart then some token else none
  match token, brackets with
  | .sign "(", _ => .ok (.round :: brackets, .start)
  | .sign "\x7b", _ => .ok (.curly :: brackets, .start)
  | .sign "-", _ | .sign "+", _ | .sign "~", _ | .name "not", _ => .ok (brackets, .operand)
  | .sign ")", _ :: rest => if isStart then .ok (rest, .after none) else .error .invalid
  | .sign "\x7d", .value :: _ => .error .missingValue
  | .sign "\x7d", _ :: rest => if isStart then .ok (rest, .after none) else .error .invalid
  | .sign ",", .value :: _ => .error .missingValue
  | _, _ => if isOperand token then .ok (brackets, .after element) else .error .invalid

/-- Where a token leads that follows an operand. -/
def operatorStep (brackets : List Bracket) (element : Option Token) (token : Token)
    (rest : List Token) : Except SyntaxFault (List Bracket × Place) :=
  match token, brackets with
  | .sign "(", _ => .ok (.call :: brackets, .start)
  | .sign ")", _ :: rest => .ok (rest, .after none)
  | .sign "\x7d", .key :: _ => .error .missingColon
  | .sign "\x7d", _ :: rest => .ok (rest, .after none)
  | .sign ",", .curly :: others => .ok (.set :: others, .start)
  | .sign ",", .value :: others => .ok (.key :: others, .start)
  | .sign ",", .key :: _ => .error .missingColon
  | .sign ",", _ => .ok (brackets, .start)
  | .sign ":", .curly :: others | .sign ":", .key :: others => .ok (.value :: others, .operand)
  | .sign ":=", _ :: _ => .ok (brackets, .operand)
  | .sign ".", _ => .ok (brackets, .member)
  | .sign "=", .call :: _ =>
    match element with
    | some (.name word) => if isKeyword word then .error .invalid else .ok (brackets, .operand)
    | _ => .error .assignedArgument
  | .sign "=", _ :: _ =>
    match element, rest with
    | some (.name word), next :: _ =>
      .error (if !isKeyword word && isOperand next then .assigned false else .invalid)
    | some _, next :: _ => .error (if isOperand next then .assigned true else .invalid)
    | _, _ => .error .invalid
  | .text isBytes, _ =>
    match element with
    | some (.text other) =>
      if isBytes == other then .ok (brackets, .after element) else .error .mixedStrings
    | _ => other
  | _, _ => other
where
  other : Except SyntaxFault (List Bracket × Place) :=
    if isOperator token then .ok (brackets, .operand)
    else if !brackets.isEmpty && startsOperand token && lacksComma element token then
      .error .missingComma
    else .error .invalid

/-- Where a name after a point leads. -/
def memberStep (brackets : List Bracket) (token : Token) :
    Except SyntaxFault (List Bracket × Place) :=
  match token with
  | .name word => if isKeyword word then .error .invalid else .ok (brackets, .after none)
  | _ => .error .invalid

/-- Whether an operand starts right after another one. -/
def isSecondOperand : Place → Token → Bool
  | .after _, token => startsOperand token
  | _, _ => false

/-- Checks tokens that follow a place inside some brackets, the innermost first; `left` is what is
wrong at the end. It is told as well where an operand that should not be there is the last token. -/
def check (left : Option SyntaxFault) : (brackets : List Bracket) → Place → List Token →
    Except SyntaxFault Unit
  | _, place, [] =>
    match left, place with
    | some fault, _ => .error fault
    | none, .start | none, .after _ => .ok ()
    | none, _ => .error .invalid
  | brackets, place, token :: rest =>
    let step := match place with
      | .start => operandStep brackets true token
      | .operand => operandStep brackets false token
      | .member => memberStep brackets token
      | .after element => operatorStep brackets element token rest
    match step with
    | .ok (brackets, place) => check left brackets place rest
    | .error fault =>
      .error (if rest.isEmpty && isSecondOperand place token then left.getD fault else fault)

/-! ## Literals -/

/-- Whether a token may be in a literal. -/
def isInLiteral : Token → Bool
  | .name word => constantNames.contains word
  | .number | .text _ => true
  | .sign sign => ["(", ")", "\x7b", "\x7d", ",", ":", "+", "-", "..."].contains sign

/-- Whether a text is an expression, and whether that is a literal. -/
def isLiteral (text : List Char) : Except SyntaxFault Bool := do
  let (tokens, left) ← tokens text
  if tokens.isEmpty then throw (left.getD .invalid)
  check left [] .start tokens
  return tokens.all isInLiteral

end SdlAssembly.Console.Handler
