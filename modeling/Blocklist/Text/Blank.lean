/-!
# Blank characters

The characters with Unicode's property `White_Space`, and trimming a line of them on both sides.
-/

namespace Blocklist.Text

/-- The 25 characters with the property `White_Space`. -/
def isBlank (c : Char) : Bool :=
  let n := c.toNat
  (0x09 ≤ n && n ≤ 0x0D) || n == 0x20 || n == 0x85 || n == 0xA0 || n == 0x1680 ||
    (0x2000 ≤ n && n ≤ 0x200A) || n == 0x2028 || n == 0x2029 || n == 0x202F || n == 0x205F ||
    n == 0x3000

def trimStart (line : List Char) : List Char := line.dropWhile isBlank

def trimEnd (line : List Char) : List Char := (line.reverse.dropWhile isBlank).reverse

def trim (line : List Char) : List Char := trimEnd (trimStart line)

/-- A text of blanks alone. -/
def isBlankText (text : List Char) : Bool := text.all isBlank

@[simp] theorem trimEnd_nil : trimEnd [] = [] := rfl

end Blocklist.Text
