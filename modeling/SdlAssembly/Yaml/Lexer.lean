import SdlAssembly.Yaml.Names

/-!
# Tokens of a text

A token is read when it is asked for. A key of a mapping shows only by the colon after it, so the
place of the last token that may be a key is kept for each level of flow collections, and the tokens
that start the key are put there later: a token that may still be a key is not given away before the
text behind it is read. Such a key stays on one line and is not too long.
-/

namespace SdlAssembly.Yaml

/-! ## State -/

/-- A token that may turn out to be a key: its place among all tokens and where it starts. -/
structure PossibleKey where
  token : Nat
  required : Bool
  index : Nat
  line : Nat
  column : Nat
  deriving Repr

/-- The reading of a text: the tokens that are read and not given away, how many are, and whether the
end of the text is reached. Content of the innermost block collection starts at column `inner - 1`,
where zero stands for no collection. -/
structure Reading where
  cursor : Cursor
  tokens : List Token := []
  taken : Nat := 0
  ended : Bool := false
  flow : Nat := 0
  inner : Nat := 0
  outer : List Nat := []
  keyAllowed : Bool := true
  keys : List (Nat × PossibleKey) := []
  deriving Repr

/-- A longer key is no key. -/
def longestKey : Nat := 1024

/-- A step of the reading. -/
abbrev Lex := StateT Reading (Except Fault)

namespace Lex

/-- A step over the text. -/
def scan {α : Type} (step : Scan α) : Lex α := do
  let (a, cursor) ← step.run (← get).cursor
  modify fun r => { r with cursor := cursor }
  return a

def push (token : Token) : Lex Unit := modify fun r => { r with tokens := r.tokens ++ [token] }

/-- Puts a token before the token at a place. -/
def insert (place : Nat) (token : Token) : Lex Unit :=
  modify fun r =>
    let (before, after) := r.tokens.splitAt (place - r.taken)
    { r with tokens := before ++ token :: after }

def allowKey (allowed : Bool) : Lex Unit := modify fun r => { r with keyAllowed := allowed }

def isFlow : Lex Bool := return (← get).flow != 0

/-! ## Possible keys -/

def isStale (r : Reading) (key : PossibleKey) : Bool :=
  key.line != r.cursor.line || longestKey < r.cursor.index - key.index

/-- Forgets the keys that can be none any more; a key that must be one is missed. -/
def dropStale : Lex Unit := do
  let r ← get
  let (stale, kept) := r.keys.partition fun (_, key) => isStale r key
  if stale.any fun (_, key) => key.required then throw .malformed
  set { r with keys := kept }

/-- Takes the possible key of the present level. -/
def takeKey? : Lex (Option PossibleKey) := do
  let r ← get
  set { r with keys := r.keys.filter fun (level, _) => level != r.flow }
  return r.keys.lookup r.flow

/-- Forgets the possible key of the present level. -/
def dropKey : Lex Unit := do
  if let some key ← takeKey? then
    if key.required then throw .malformed

/-- Notes that the next token may be a key, where keys are allowed. -/
def saveKey : Lex Unit := do
  if (← get).keyAllowed then
    dropKey
    modify fun r =>
      let c := r.cursor
      let required := r.flow == 0 && r.inner == c.column + 1
      { r with
        keys := (r.flow, ⟨r.taken + r.tokens.length, required, c.index, c.line, c.column⟩)
          :: r.keys }

/-! ## Indentation -/

/-- Ends the block collections whose content starts after a column, given as the column plus one;
inside flow collections indentation does not count. -/
def unwind (limit : Nat) : Lex Unit :=
  modify fun r =>
    if r.flow != 0 then r
    else
      let ended := (r.inner :: r.outer).takeWhile fun inner => limit < inner
      let left := (r.inner :: r.outer).drop ended.length
      { r with
        tokens := r.tokens ++ ended.map fun _ => Token.blockEnd
        inner := left.head?.getD 0
        outer := left.drop 1 }

/-- Starts a block collection at a column, unless one is there already: says whether it did. -/
def indent (column : Nat) : Lex Bool := do
  let r ← get
  if r.inner < column + 1 then
    set { r with inner := column + 1, outer := r.inner :: r.outer }
    return true
  else return false

/-! ## Tokens of structure -/

/-- A token of some characters. -/
def mark (token : Token) (length : Nat := 1) : Lex Unit := do
  scan (forward length)
  push token

/-- A mark between documents, or a directive: no collection goes on over it. -/
def betweenDocuments : Lex Unit := do
  unwind 0
  dropKey
  allowKey false

def documentMark (token : Token) : Lex Unit := do
  betweenDocuments
  mark token 3

def directive : Lex Unit := do
  betweenDocuments
  push (.directive (← scan directiveLine))

def flowStart (token : Token) : Lex Unit := do
  saveKey
  modify fun r => { r with flow := r.flow + 1 }
  allowKey true
  mark token

def flowEnd (token : Token) : Lex Unit := do
  dropKey
  modify fun r => { r with flow := r.flow - 1 }
  allowKey false
  mark token

def flowEntry : Lex Unit := do
  allowKey true
  dropKey
  mark .flowEntry

/-- Starts a block collection where one may start, before an indicator. -/
def blockStart (token : Token) : Lex Unit := do
  if !(← isFlow) then
    let r ← get
    if !r.keyAllowed then throw .malformed
    if ← indent r.cursor.column then push token

def blockEntry : Lex Unit := do
  blockStart .blockSequenceStart
  allowKey true
  dropKey
  mark .blockEntry

def keyMark : Lex Unit := do
  blockStart .blockMappingStart
  allowKey !(← isFlow)
  dropKey
  mark .key

/-- A colon: it makes the possible key of its level a key. -/
def valueMark : Lex Unit := do
  match ← takeKey? with
  | some key =>
    insert key.token .key
    if !(← isFlow) then
      if ← indent key.column then insert key.token .blockMappingStart
    allowKey false
  | none =>
    blockStart .blockMappingStart
    allowKey !(← isFlow)
  mark .value

/-! ## Tokens of content -/

/-- A token that may start a key, after which no key may start. -/
def content (read : Scan Token) : Lex Unit := do
  saveKey
  allowKey false
  push (← scan read)

def block (folded : Bool) : Lex Unit := do
  allowKey true
  dropKey
  let column := (← get).inner
  push (.scalar (.whole (← scan (blockScalar folded column))) false)

def plain : Lex Unit := do
  saveKey
  let column := (← get).inner
  let (text, ended) ← scan (plainScalar (← isFlow) column)
  allowKey ended
  push (.scalar (.whole text) true)

/-! ## The next token -/

/-- Goes on over spaces, comments and line ends; a key may start on a new line. -/
def skipGap : (fuel : Nat) → Lex Unit
  | 0 => return
  | fuel + 1 => do
    scan skipSpaces
    scan skipComment
    if (← scan lineBreak?).isSome then
      if !(← isFlow) then allowKey true
      skipGap fuel

/-- Goes on to the next token; a byte order mark may start the text. -/
def toNext : Lex Unit := do
  if (← get).cursor.index == 0 then
    if (← scan peek) == some byteOrderMark then scan forward
  skipGap (← scan bound)

/-- Whether a mark between documents starts with a character at the start of a line. -/
def isBetween (c : Char) : Lex Bool := do
  if (c == '-' || c == '.') && (← get).cursor.column == 0 then scan isDocumentMark
  else return false

/-- Whether a character is an indicator, which it is before a gap. -/
def indicates (indicator c : Char) (everywhere : Bool) : Lex Bool := do
  if c != indicator then return false
  if everywhere then return true
  return isGap (← scan (peek 1))

/-- Whether a plain scalar can start with a character. -/
def startsPlain (c : Char) : Lex Bool := do
  let marks := ['-', '?', ':', ',', '[', ']', '\x7b', '\x7d', '#', '&', '*', '!', '|', '>', '\'',
    '"', '%', '@', '\x60']
  if !isGap (some c) && !marks.contains c then return true
  if isGap (← scan (peek 1)) then return false
  return c == '-' || (!(← isFlow) && (c == '?' || c == ':'))

/-- The token that starts with a character. -/
def token (c : Char) : Lex Unit := do
  let flow ← isFlow
  if c == '%' && (← get).cursor.column == 0 then directive
  else if ← isBetween c then documentMark (if c == '-' then .documentStart else .documentEnd)
  else if c == '[' then flowStart .flowSequenceStart
  else if c == '\x7b' then flowStart .flowMappingStart
  else if c == ']' then flowEnd .flowSequenceEnd
  else if c == '\x7d' then flowEnd .flowMappingEnd
  else if c == ',' then flowEntry
  else if ← indicates '-' c false then blockEntry
  else if ← indicates '?' c flow then keyMark
  else if ← indicates ':' c flow then valueMark
  else if c == '*' then content (return .reference (← anchorName))
  else if c == '&' then content (return .anchor (← anchorName))
  else if c == '!' then
    content do
      let (handle, suffix) ← tagText
      return .tag handle suffix
  else if c == '|' && !flow then block false
  else if c == '>' && !flow then block true
  else if c == '\'' || c == '"' then content (return .scalar (← quotedScalar (c == '"')) false)
  else if ← startsPlain c then plain
  else throw .malformed

/-- Reads one more token, or the end of the text. -/
def next : Lex Unit := do
  toNext
  dropStale
  unwind ((← get).cursor.column + 1)
  match ← scan peek with
  | some c => token c
  | none =>
    unwind 0
    dropKey
    modify fun r => { r with ended := true, keyAllowed := false, keys := [] }

/-! ## Settled tokens -/

/-- Whether it is open what comes next: no token is read, or the first one may still be a key. -/
def isOpen : Lex Bool := do
  if (← get).ended then return false
  if (← get).tokens.isEmpty then return true
  dropStale
  let r ← get
  return (r.keys.map fun (_, key) => key.token).min? == some r.taken

/-- Reads as far as it takes to settle the next token. -/
def settle : (fuel : Nat) → Lex Unit
  | 0 => throw .malformed
  | fuel + 1 => do
    next
    if ← isOpen then settle fuel

/-- The next token; there is none at the end of the text. Each token takes a character at least. -/
def peek? : Lex (Option Token) := do
  if ← isOpen then settle ((← scan bound) + 1)
  return (← get).tokens.head?

/-- Gives the next token away. -/
def drop : Lex Unit :=
  modify fun r => { r with tokens := r.tokens.drop 1, taken := r.taken + 1 }

end Lex

end SdlAssembly.Yaml
