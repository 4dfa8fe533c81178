/-!
# Blank characters

The characters that part words, and texts without those around them.
-/

namespace SdlAssembly.Text

/-- Whether a character parts words. -/
def isSpace (c : Char) : Bool :=
  let n := c.toNat
  (0x09 ≤ n && n ≤ 0x0D) || (0x1C ≤ n && n ≤ 0x20) || n == 0x85 || n == 0xA0 || n == 0x1680
    || (0x2000 ≤ n && n ≤ 0x200A) || n == 0x2028 || n == 0x2029 || n == 0x202F || n == 0x205F
    || n == 0x3000

def dropSpaceRight (text : List Char) : List Char := (text.reverse.dropWhile isSpace).reverse

/-- A text without the blanks around it. -/
def trim (text : List Char) : List Char := dropSpaceRight (text.dropWhile isSpace)

end SdlAssembly.Text
