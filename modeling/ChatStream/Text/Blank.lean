/-!
# Blank text

Blanks are the characters with the Unicode property `White_Space`: a fixed list of twenty-five.
Zero-width characters (U+200B, U+FEFF) and the Mongolian vowel separator (U+180E) are not among
them, so text made of those is not blank.

Trimming is stated on character lists, where it is two `dropWhile`s, and carried to strings.
-/

namespace ChatStream.Text

/-- The characters with the Unicode property `White_Space`. -/
def isBlank (c : Char) : Bool :=
  let n := c.toNat
  (0x09 ≤ n && n ≤ 0x0D) || n == 0x20 || n == 0x85 || n == 0xA0 || n == 0x1680 ||
    (0x2000 ≤ n && n ≤ 0x200A) || n == 0x2028 || n == 0x2029 || n == 0x202F || n == 0x205F ||
    n == 0x3000

/-- Drops the blanks at both ends. -/
def trimChars (cs : List Char) : List Char :=
  ((cs.dropWhile isBlank).reverse.dropWhile isBlank).reverse

/-- Drops the blanks at both ends. -/
def trim (s : String) : String := String.ofList (trimChars s.toList)

/-- Drops the blanks at the front. -/
def trimStart (s : String) : String := String.ofList (s.toList.dropWhile isBlank)

/-- Nothing is left once the blanks are dropped. -/
def isBlankText (s : String) : Bool := (trim s).isEmpty

/-- What follows `lead` in `s`, when `s` begins with it. -/
def after? (lead s : String) : Option String :=
  (lead.toList.isPrefixOf? s.toList).map String.ofList

end ChatStream.Text
