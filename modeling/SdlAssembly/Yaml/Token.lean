import SdlAssembly.Number.Written
import SdlAssembly.Text.Utf8
import SdlAssembly.Yaml.ScalarText

/-!
# Tokens of configurations

The tokens of a text and what can be wrong with it. Indentation shows as tokens that start and end
block collections.
-/

namespace SdlAssembly.Yaml

/-! ## Faults -/

/-- A scalar whose text does not suit its tag. -/
inductive ScalarFault where
  | emptyNumber
  | notWhole (fault : Number.Written.WholeFault)
  | notNumber (text : ScalarText)
  /-- A number has so many parts in base sixty that no factor is left for the first. -/
  | tooManyParts
  | notBoolean (text : ScalarText)
  | notTimestamp
  /-- A collection stands where a timestamp is written. -/
  | timestampCollection
  | noSuchTime (reason : String)
  deriving Repr, BEq, DecidableEq

def ScalarFault.message : ScalarFault → String
  | emptyNumber => "string index out of range"
  | notWhole fault => fault.message
  | notNumber text => "could not convert string to float: " ++ text.literal
  | tooManyParts => "int too large to convert to float"
  | notBoolean text => text.literal
  | notTimestamp => "'NoneType' object has no attribute 'groupdict'"
  | timestampCollection => "expected string or bytes-like object, got 'list'"
  | noSuchTime reason => reason

inductive Fault where
  /-- The bytes are no text. -/
  | undecodable (fault : Text.Utf8.Fault)
  /-- The text is not in the language, or its nodes do not fit together. -/
  | malformed
  | scalar (fault : ScalarFault)
  /-- An escape asks for a character beyond the last one. -/
  | beyondUnicode
  /-- An escape asks for a character by a number of more than 31 binary digits. -/
  | beyondNumbers
  /-- A mapping stands for a text by way of itself. -/
  | endless
  /-- A node is inside too many collections. -/
  | nestedTooDeep
  deriving Repr, BEq, DecidableEq

def Fault.message : Fault → String
  | undecodable fault => fault.message
  | malformed | endless | nestedTooDeep => ""
  | scalar fault => fault.message
  | beyondUnicode => "chr() arg not in range(0x110000)"
  | beyondNumbers => "Python int too large to convert to C int"

/-! ## Tokens -/

inductive Directive where
  | version (major minor : Nat)
  | tag (handle lead : String)
  | other
  deriving Repr, BEq, DecidableEq

inductive Token where
  | directive (directive : Directive)
  | documentStart
  | documentEnd
  | blockSequenceStart
  | blockMappingStart
  | blockEnd
  | flowSequenceStart
  | flowSequenceEnd
  | flowMappingStart
  | flowMappingEnd
  | blockEntry
  | flowEntry
  | key
  | value
  | reference (name : String)
  | anchor (name : String)
  | tag (handle : Option String) (suffix : String)
  | scalar (text : ScalarText) (plain : Bool)
  deriving Repr, BEq, DecidableEq

end SdlAssembly.Yaml
