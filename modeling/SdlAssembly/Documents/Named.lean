import SdlAssembly.Grammar.Parser.Document

/-!
# Documents with names

A parsed document and the file it came from, if any.
-/

namespace SdlAssembly.Documents

open Grammar Text

structure NamedDocument where
  document : Document
  fileName : Option String := none
  deriving Repr, BEq, Inhabited

/-- Absent and empty names are no names. -/
def usable (name : Option String) : Option String := name.filter fun text => !text.isEmpty

/-- The name that messages use: the file name, else the name of the text that was read. -/
def NamedDocument.displayName (d : NamedDocument) : Option String :=
  usable d.fileName <|> d.document.sourceName

/-- Reads a text; its file name is also the name of the text. -/
def NamedDocument.read (text : String) (fileName : Option String) (located : Bool := true) :
    Except SyntaxError NamedDocument := do
  let source : Source := ⟨(usable fileName).getD unnamedSource, text⟩
  return ⟨← parseDocument source located, fileName⟩

end SdlAssembly.Documents
