/-!
# Blank characters

The characters that separate words without meaning anything, the same set wherever a text is
split, trimmed or skipped: the control characters from tabulation to carriage return, the four
information separators, the space, and the separators of the wider character set.

* `isBlank` — membership.
* `trim` — a text without the blanks at either end.
-/

namespace Propositional

/-- A character that separates without meaning. -/
def isBlank (c : Char) : Bool :=
  let n := c.toNat
  (9 ≤ n && n ≤ 13) || (28 ≤ n && n ≤ 32) || n == 0x85 || n == 0xa0 || n == 0x1680 ||
    (0x2000 ≤ n && n ≤ 0x200a) || n == 0x2028 || n == 0x2029 || n == 0x202f || n == 0x205f ||
    n == 0x3000

/-- A text without the blanks at its two ends. -/
def trim (text : String) : String :=
  String.ofList (((text.toList.dropWhile isBlank).reverse.dropWhile isBlank).reverse)

end Propositional
