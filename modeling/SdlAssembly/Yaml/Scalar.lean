import SdlAssembly.Yaml.Cursor

/-!
# Texts of scalars

A scalar is plain, quoted or a block. Lines of plain and quoted scalars are joined by a space, and
blank lines between them are kept as line ends. A block keeps its lines, or joins those that are not
indented further.
-/

namespace SdlAssembly.Yaml

/-! ## Quoted scalars -/

/-- The characters that stand for themselves or others after a backslash. -/
def escapes : List (Char × Char) :=
  [('0', '\x00'), ('a', '\x07'), ('b', '\x08'), ('t', '\x09'), ('\t', '\x09'), ('n', '\n'),
    ('v', '\x0b'), ('f', '\x0c'), ('r', '\r'), ('e', '\x1b'), (' ', ' '), ('"', '"'),
    ('\\', '\\'), ('/', '/'), ('N', '\u0085'), ('_', '\u00a0'), ('L', '\u2028'),
    ('P', '\u2029')]

/-- The number of hexadecimal digits after a letter. -/
def escapeDigits : Char → Option Nat
  | 'x' => some 2
  | 'u' => some 4
  | 'U' => some 8
  | _ => none

def isHexDigit (c : Char) : Bool :=
  c.isDigit || ('a' ≤ c && c ≤ 'f') || ('A' ≤ c && c ≤ 'F')

/-- The number written by hexadecimal digits. -/
def hexValue (digits : List Char) : Nat :=
  digits.foldl (fun n c =>
    n * 16 + (if c.isDigit then c.toNat - 48 else if 'a' ≤ c then c.toNat - 87 else c.toNat - 55)) 0

/-- The hexadecimal digits at a place, which have to be there. -/
def hexDigits (count : Nat) : Scan (List Char) := do
  let digits := ((← get).rest.take count).takeWhile isHexDigit
  look (min count (digits.length + 1))
  if digits.length < count then throw .malformed
  return digits

/-- The code point of an escape by number. -/
def escapedNumber (count : Nat) : Scan Nat := do
  let n := hexValue (← hexDigits count)
  if 0x80000000 ≤ n then throw .beyondNumbers
  if 0x110000 ≤ n then throw .beyondUnicode
  forward count
  return n

/-- The line ends of blank lines inside a quoted scalar, which no mark between documents may
follow. -/
def quotedBreaks : (fuel : Nat) → Scan (List Char)
  | 0 => throw .malformed
  | fuel + 1 => do
    if ← isDocumentMark then throw .malformed
    let _ ← span isBlank
    match ← lineBreak? with
    | none => return []
    | some ending => return ending :: (← quotedBreaks fuel)

/-- What the blanks and line ends at a place stand for. -/
def quotedSpaces : Scan (List Char) := do
  let blanks ← span isBlank
  if (← peek).isNone then throw .malformed
  match ← lineBreak? with
  | none => return blanks
  | some ending =>
    let breaks ← quotedBreaks (← bound)
    if ending != '\n' then return ending :: breaks
    else if breaks.isEmpty then return [' ']
    else return breaks

private def codes (cs : List Char) : List Nat := cs.map Char.toNat

/-- The code points that an escape stands for. -/
def escaped : Scan (List Nat) := do
  match ← peek with
  | none => throw .malformed
  | some d =>
    match escapes.lookup d, escapeDigits d with
    | some e, _ =>
      forward
      return [e.toNat]
    | none, some count =>
      forward
      return [← escapedNumber count]
    | none, none =>
      if (← lineBreak?).isNone then throw .malformed
      return codes (← quotedBreaks (← bound))

/-- The code points of a quoted scalar after its first quote, up to its last one. -/
def quotedText (double : Bool) : (fuel : Nat) → Scan (List Nat)
  | 0 => throw .malformed
  | fuel + 1 => do
    let goOn (part : List Nat) : Scan (List Nat) := return part ++ (← quotedText double fuel)
    match ← peek with
    | none => throw .malformed
    | some d =>
      if isBlank d || isBreak d then
        goOn (codes (← quotedSpaces))
      else if double && d == '"' then
        forward
        return []
      else if double && d == '\\' then
        forward
        goOn (← escaped)
      else if !double && d == '\'' then
        if (← peek 1) == some '\'' then
          forward 2
          goOn [d.toNat]
        else
          forward
          return []
      else
        forward
        goOn [d.toNat]

/-- A quoted scalar. -/
def quotedScalar (double : Bool) : Scan ScalarText := do
  forward
  return .ofCodes (← quotedText double (← bound))

/-! ## Plain scalars -/

/-- The characters that structure flow collections. -/
def isFlowMark (c : Char) : Bool := c == ',' || c == '[' || c == ']' || c == '\x7b' || c == '\x7d'

/-- Whether a word of a plain scalar stops before a character. -/
def stopsWord (flow : Bool) (c : Char) (next : Option Char) : Bool :=
  isBlank c || isBreak c
    || (c == ':' && (isGap next || (flow && (next.map isFlowMark).getD false)))
    || (flow && (isFlowMark c || c == '?'))

/-- The length of the word at the start of a text. -/
def wordLength (flow : Bool) : List Char → Nat
  | [] => 0
  | c :: rest => if stopsWord flow c rest.head? then 0 else wordLength flow rest + 1

/-- The word of a plain scalar at a place. After a colon the next character tells whether the word
stops. -/
def word (flow : Bool) : Scan (List Char) := do
  let rest := (← get).rest
  let length := wordLength flow rest
  look (if rest[length]? == some ':' then length + 2 else length + 1)
  forward length
  return rest.take length

/-- The line ends of the blank lines after a line of a plain scalar, if no mark between documents
follows one of them. -/
def plainBreaks : (fuel : Nat) → Scan (Option (List Char))
  | 0 => return none
  | fuel + 1 => do
    if ← isDocumentMark then return none
    skipSpaces
    match ← lineBreak? with
    | none => return some []
    | some ending => return (← plainBreaks fuel).map (ending :: ·)

/-- What the spaces and line ends after a word stand for, and whether a line ended. -/
def plainSpaces : Scan (List Char × Bool) := do
  let blanks ← span (· == ' ')
  match ← lineBreak? with
  | none => return (blanks, false)
  | some ending =>
    match ← plainBreaks (← bound) with
    | none => return ([], true)
    | some breaks =>
      let joint :=
        if ending != '\n' then ending :: breaks else if breaks.isEmpty then [' '] else breaks
      return (joint, true)

/-- The words of a plain scalar after the given spaces, and whether a line ended after the last of
them. Outside of flow collections a line must be indented up to a column. -/
def plainText (flow : Bool) (column : Nat) :
    (fuel : Nat) → (spaces : List Char) → (ended : Bool) → Scan (List Char × Bool)
  | 0, _, ended => return ([], ended)
  | fuel + 1, spaces, ended => do
    if (← peek) == some '#' then return ([], ended)
    let word ← word flow
    if word.isEmpty then return ([], ended)
    let (after, ended) ← plainSpaces
    if after.isEmpty || (← peek) == some '#' || (!flow && (← get).column < column) then
      return (spaces ++ word, ended)
    let (text, ended) ← plainText flow column fuel after ended
    return (spaces ++ word ++ text, ended)

/-- A plain scalar, and whether a line ended after it. -/
def plainScalar (flow : Bool) (column : Nat) : Scan (String × Bool) := do
  let (text, ended) ← plainText flow column (← bound) [] false
  return (String.ofList text, ended)

/-! ## Block scalars -/

/-- What becomes of the line ends at the end of a block. -/
inductive Chomping where
  | strip | clip | keep
  deriving Repr, BEq, DecidableEq

def chomping? : Option Char → Option Chomping
  | some '+' => some .keep
  | some '-' => some .strip
  | _ => none

def digit? (c : Option Char) : Option Nat :=
  c.bind fun c => if c.isDigit then some (c.toNat - 48) else none

/-- The indentation that is given by a digit, if there is one. -/
def blockIndentation : Scan (Option Nat) := do
  match digit? (← peek) with
  | none => return none
  | some 0 => throw .malformed
  | some n =>
    forward
    return some n

/-- The chomping and the indentation that the first line of a block gives, in either order. -/
def blockHeader : Scan (Chomping × Option Nat) := do
  let header ←
    match chomping? (← peek) with
    | some chomping =>
      forward
      pure (chomping, ← blockIndentation)
    | none =>
      match ← blockIndentation with
      | none => pure (.clip, none)
      | some n =>
        match chomping? (← peek) with
        | none => pure (.clip, some n)
        | some chomping =>
          forward
          pure (chomping, some n)
  if !endsWord (← peek) then throw .malformed
  return header

/-- The blank lines at the start of a block, and the deepest column that their spaces reach. -/
def blockStart : (fuel : Nat) → (deepest : Nat) → Scan (List Char × Nat)
  | 0, deepest => return ([], deepest)
  | fuel + 1, deepest => do
    if (← peek) == some ' ' then
      forward
      blockStart fuel (max deepest (← get).column)
    else
      match ← lineBreak? with
      | none => return ([], deepest)
      | some ending =>
        let (breaks, deepest) ← blockStart fuel deepest
        return (ending :: breaks, deepest)

/-- The blank lines at a place, and the spaces of the indentation that follows. -/
def blockBreaks (indentation : Nat) : (fuel : Nat) → Scan (List Char)
  | 0 => return []
  | fuel + 1 => do
    let c ← get
    let spaces := (c.rest.takeWhile (· == ' ')).length
    forward (min spaces (indentation - c.column))
    match ← lineBreak? with
    | none => return []
    | some ending => return ending :: (← blockBreaks indentation fuel)

/-- Whether a line of a block starts at a place. -/
def atBlockLine (indentation : Nat) : Scan Bool :=
  return (← peek).isSome && (← get).column == indentation

/-- Whether a line starts with a blank. -/
def startsBlank : Scan Bool := return ((← peek).map isBlank).getD false

/-- The lines of a block after the given blank lines; also the line end of the last line and the
blank lines after it. -/
def blockLines (folded : Bool) (indentation : Nat) :
    (fuel : Nat) → (breaks : List Char) → Scan (List Char × List Char × List Char)
  | 0, breaks => return ([], [], breaks)
  | fuel + 1, breaks => do
    if !(← atBlockLine indentation) then return ([], [], breaks)
    let blank ← startsBlank
    let line ← span fun d => !isBreak d
    let ending := (← lineBreak?).toList
    let after ← blockBreaks indentation (← bound)
    if !(← atBlockLine indentation) then return (breaks ++ line, ending, after)
    let joint :=
      if folded && ending == ['\n'] && !blank && !(← startsBlank) then
        if after.isEmpty then [' '] else []
      else ending
    let (text, last, left) ← blockLines folded indentation fuel after
    return (breaks ++ line ++ joint ++ text, last, left)

/-- A block scalar inside a collection whose content starts at a column. -/
def blockScalar (folded : Bool) (column : Nat) : Scan String := do
  forward
  let (chomping, given) ← blockHeader
  restOfLine
  let least := max 1 column
  let (breaks, indentation) ←
    match given with
    | none =>
      let (breaks, deepest) ← blockStart (← bound) 0
      pure (breaks, max least deepest)
    | some n =>
      let indentation := least + n - 1
      pure (← blockBreaks indentation (← bound), indentation)
  let (text, ending, left) ← blockLines folded indentation (← bound) breaks
  let tail := match chomping with
    | .strip => []
    | .clip => ending
    | .keep => ending ++ left
  return String.ofList (text ++ tail)

end SdlAssembly.Yaml
