import ConversionCoverage.Text

/-!
# Blanks

The code points that count as blank around a name or a number, and their removal from the ends
of a text.
-/

namespace ConversionCoverage

namespace CodePoint

/-- Whether the code point is a blank outside ASCII. -/
def isWideBlank (c : CodePoint) : Bool :=
  let n := c.toNat
  n == 0x85 || n == 0xA0 || n == 0x1680 || (0x2000 ≤ n && n ≤ 0x200A) || n == 0x2028 ||
    n == 0x2029 || n == 0x202F || n == 0x205F || n == 0x3000

/-- Whether the code point is white space or one of the separators `0x1C` to `0x1F`. -/
def isBlank (c : CodePoint) : Bool :=
  let n := c.toNat
  (9 ≤ n && n ≤ 13) || (0x1C ≤ n && n ≤ 0x20) || c.isWideBlank

/-- Whether the code point is white space. -/
def isSpace (c : CodePoint) : Bool :=
  let n := c.toNat
  (9 ≤ n && n ≤ 13) || n == 0x20 || c.isWideBlank

end CodePoint

namespace Text

/-- The text without the code points at both ends that satisfy `p`. -/
def trimBoth (p : CodePoint → Bool) (t : Text) : Text :=
  ((t.dropWhile p).reverse.dropWhile p).reverse

/-- The text without blanks at both ends. -/
def strip (t : Text) : Text := t.trimBoth CodePoint.isBlank

end Text

end ConversionCoverage
