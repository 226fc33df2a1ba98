import ConversionCoverage.Text.Printable

/-!
# Quoted texts

The form in which a message shows a text or a string of bytes: between quotes, with backslash
escapes for the quote in use, for the backslash and for all that cannot be printed.
-/

namespace ConversionCoverage.Text

/-- A single quote, or a double quote for a text that holds single quotes and no double ones. -/
def quoteMark (t : Text) : CodePoint :=
  if t.contains '\'' && !t.contains '"' then '"' else '\''

/-- One code point between quotes of the kind `mark`. -/
def quotePoint (mark c : CodePoint) : Text :=
  if c = mark ∨ c = '\\' then ['\\', c]
  else if c = '\n' then "\\n"
  else if c = '\r' then "\\r"
  else if c = '\t' then "\\t"
  else if c.isPrintable then [c]
  else if c.toNat < 0x100 then "\\x" ++ hex 2 c.toNat
  else if c.toNat < 0x10000 then "\\u" ++ hex 4 c.toNat
  else "\\U" ++ hex 8 c.toNat

/-- The text between quotes. -/
def quoted (t : Text) : Text :=
  let mark := quoteMark t
  mark :: t.flatMap (quotePoint mark) ++ [mark]

/-- Bytes between quotes after a `b`; the bytes of printable ASCII stand for themselves. -/
def quotedBytes (bytes : List UInt8) : Text :=
  let points : Text := bytes.map fun b => .char (Char.ofNat b.toNat)
  let mark := quoteMark points
  let body := points.flatMap fun c =>
    if c.toNat < 0x7F then quotePoint mark c else "\\x" ++ hex 2 c.toNat
  .char 'b' :: mark :: body ++ [mark]

end ConversionCoverage.Text
