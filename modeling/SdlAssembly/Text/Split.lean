/-!
# Texts between separators

A text with a separator in it is parted into the texts between. There is one more of them than there
are separators, so that some may be empty.
-/

namespace SdlAssembly.Text

/-- The texts between separators. -/
def split (separator : Char) (text : String) : List String :=
  (text.toList.splitOn separator).map String.ofList

end SdlAssembly.Text
