import SdlAssembly.Yaml.Scalar

/-!
# Names of anchors and tags

Anchors and aliases have names of letters, digits, hyphens and underscores. A tag is a handle and a
suffix, or a suffix alone; the characters of a suffix may be escaped by the bytes of their UTF-8.
-/

namespace SdlAssembly.Yaml

open Text

/-! ## Anchors -/

/-- The characters that may come right after the name of an anchor. -/
def endsAnchor (c : Option Char) : Bool :=
  isGap c || (c.map fun c => ['?', ':', ',', ']', '\x7d', '%', '@', '\x60'].contains c).getD true

/-- The name after an indicator. -/
def anchorName : Scan String := do
  forward
  let name ← span isNameChar
  if name.isEmpty || !endsAnchor (← peek) then throw .malformed
  return String.ofList name

/-! ## Tags -/

def isTagChar (c : Char) : Bool :=
  isNameChar c || [';', '/', '?', ':', '@', '&', '=', '+', '$', ',', '.', '!', '~', '*', '\'', '(',
    ')', '[', ']'].contains c

/-- The bytes of the escapes at a place. -/
def escapedBytes : (fuel : Nat) → Scan (List UInt8)
  | 0 => return []
  | fuel + 1 => do
    if (← peek) != some '%' then return []
    forward
    let digits ← hexDigits 2
    forward 2
    return UInt8.ofNat (hexValue digits) :: (← escapedBytes fuel)

/-- The suffix of a tag up to the first character that it cannot hold. -/
def suffixText : (fuel : Nat) → Scan (List Char)
  | 0 => return []
  | fuel + 1 => do
    let text ← span isTagChar
    if (← peek) != some '%' then return text
    match Utf8.decode (← escapedBytes (← bound)) with
    | .error _ => throw .malformed
    | .ok decoded => return text ++ decoded ++ (← suffixText fuel)

/-- The suffix of a tag, which is not empty. -/
def tagSuffix : Scan String := do
  let start := (← get).index
  let text ← suffixText (← bound)
  if (← get).index = start then throw .malformed
  return String.ofList text

/-- A handle: an exclamation mark, or a name between two of them. -/
def tagHandle : Scan String := do
  if (← peek) != some '!' then throw .malformed
  if (← peek 1) == some ' ' then
    forward
    return "!"
  forward
  let name ← span isNameChar
  if (← peek) != some '!' then throw .malformed
  forward
  return "!" ++ String.ofList name ++ "!"

/-- Whether a word holds a second exclamation mark, which ends a handle. -/
def hasHandle : Scan Bool := do
  let word := (← get).rest.drop 1
  let length := (word.takeWhile fun d => d != '!' && !endsWord (some d)).length
  look (length + 2)
  return word[length]? == some '!'

/-- A tag: its handle, if it has one, and its suffix. -/
def tagText : Scan (Option String × String) := do
  let next ← peek 1
  let tag ←
    if next == some '<' then
      forward 2
      let suffix ← tagSuffix
      if (← peek) != some '>' then throw .malformed
      forward
      pure (none, suffix)
    else if isGap next then
      forward
      pure (none, "!")
    else if ← hasHandle then
      let handle ← tagHandle
      pure (some handle, ← tagSuffix)
    else
      forward
      pure (some "!", ← tagSuffix)
  if !endsWord (← peek) then throw .malformed
  return tag

/-! ## Directives -/

/-- A number in a directive. -/
def directiveNumber : Scan Nat := do
  let digits ← span Char.isDigit
  if digits.isEmpty then throw .malformed
  if Number.Written.mostDigits < digits.length then
    throw (.scalar (.notWhole (.tooLong digits.length)))
  return Nat.ofDigitChars 10 digits 0

/-- The version after the name of its directive. -/
def versionDirective : Scan Directive := do
  skipSpaces
  let major ← directiveNumber
  if (← peek) != some '.' then throw .malformed
  forward
  let minor ← directiveNumber
  if !endsWord (← peek) then throw .malformed
  return .version major minor

/-- The handle and its replacement after the name of their directive. -/
def tagDirective : Scan Directive := do
  skipSpaces
  let handle ← tagHandle
  if (← peek) != some ' ' then throw .malformed
  skipSpaces
  let lead ← tagSuffix
  if !endsWord (← peek) then throw .malformed
  return .tag handle lead

/-- A directive with its line. -/
def directiveLine : Scan Directive := do
  forward
  let name ← span isNameChar
  if name.isEmpty || !endsWord (← peek) then throw .malformed
  let directive ←
    if name == "YAML".toList then versionDirective
    else if name == "TAG".toList then tagDirective
    else
      skipLine
      pure .other
  restOfLine
  return directive

end SdlAssembly.Yaml
