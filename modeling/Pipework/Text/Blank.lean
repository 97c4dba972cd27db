/-!
# Blank characters

The characters that count as white space when text from a user is cut at both ends, and the
lower-casing used for names of policies. White space is the Unicode property `White_Space`; case
folding touches ASCII letters only, so a name that merely looks like a policy's name in another
alphabet is not taken for it.
-/

namespace Pipework.Text

/-- The code points with the Unicode property `White_Space`. -/
def isBlank (c : Char) : Bool :=
  let n := c.toNat
  (9 ≤ n && n ≤ 13) || n == 0x20 || n == 0x85 || n == 0xA0 || n == 0x1680 ||
    (0x2000 ≤ n && n ≤ 0x200A)
    || n == 0x2028 || n == 0x2029 || n == 0x202F || n == 0x205F || n == 0x3000

/-- A list of characters without the blanks at its two ends. -/
def trimChars (cs : List Char) : List Char :=
  ((cs.dropWhile isBlank).reverse.dropWhile isBlank).reverse

/-- A text without the blanks at its two ends. -/
def trim (s : String) : String := String.ofList (trimChars s.toList)

/-- A text with its ASCII capitals in lower case and every other character as it is. -/
def lower (s : String) : String := s.map Char.toLower

end Pipework.Text
