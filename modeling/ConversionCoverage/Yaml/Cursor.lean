import ConversionCoverage.Text

/-!
# Places in a YAML document

A cursor is the rest of a document together with the place where it starts. Line breaks are `\n`,
the next-line control and the line and paragraph separators; a byte order mark takes no column.
-/

namespace ConversionCoverage.Yaml

/-- Whether a code point ends a line. -/
def isBreak (c : CodePoint) : Bool :=
  c = '\n' || c = .char '\x85' || c = .char '\u2028' || c = .char '\u2029'

/-- Whether a code point is a space or a tab. -/
def isBlank (c : CodePoint) : Bool := c = ' ' || c = '\t'

/-- Whether a code point separates words: a blank or a line break. -/
def isSeparator (c : CodePoint) : Bool := isBlank c || isBreak c

/-- The rest of a document, from the given place on. -/
structure Cursor where
  rest : Text
  index : Nat
  line : Nat
  column : Nat

namespace Cursor

def ofText (t : Text) : Cursor := ⟨t, 0, 0, 0⟩

def peek (c : Cursor) (distance : Nat) : Option CodePoint := c.rest[distance]?

/-- Whether the code point at the given distance satisfies `p`. -/
def sees (c : Cursor) (distance : Nat) (p : CodePoint → Bool) : Bool := (c.peek distance).any p

/-- Whether the code point at the given distance satisfies `p` or the document ends there. -/
def seesOrEnds (c : Cursor) (distance : Nat) (p : CodePoint → Bool) : Bool :=
  (c.peek distance).all p

def next (c : Cursor) : Cursor :=
  match c.rest with
  | [] => c
  | p :: rest =>
    if isBreak p then ⟨rest, c.index + 1, c.line + 1, 0⟩
    else if p = '\ufeff' then ⟨rest, c.index + 1, c.line, c.column⟩
    else ⟨rest, c.index + 1, c.line, c.column + 1⟩

/-- The place after `n` code points. -/
def advance (c : Cursor) : Nat → Cursor
  | 0 => c
  | n + 1 => c.next.advance n

/-- The longest run of code points that satisfy `p`, and the place after it. -/
def span (c : Cursor) (p : CodePoint → Bool) : Text × Cursor :=
  let run := c.rest.takeWhile p
  (run, c.advance run.length)

/-- The place after the longest run of code points that satisfy `p`. -/
def skip (c : Cursor) (p : CodePoint → Bool) : Cursor := (c.span p).2

def skipSpaces (c : Cursor) : Cursor := c.skip (· = ' ')

/-- The place after the spaces that lie before the given column. -/
def skipIndentation (c : Cursor) (column : Nat) : Cursor :=
  c.advance (min (column - c.column) (c.rest.takeWhile (· = .char ' ')).length)

/-- The place after a comment, or the same place where none starts. -/
def skipComment (c : Cursor) : Cursor := if c.sees 0 (· = '#') then c.skip (! isBreak ·) else c

/-- A line break as it counts in a text, and the place after it. The control for the next line
counts as `\n`. Where no line ends, the text is empty. -/
def lineBreak (c : Cursor) : Text × Cursor :=
  match c.peek 0 with
  | none => ([], c)
  | some p =>
    if p = '\n' ∨ p = .char '\x85' then (['\n'], c.next)
    else if isBreak p then ([p], c.next)
    else ([], c)

/-- Whether a document marker, three hyphens or three points, starts here. -/
def seesMarker (c : Cursor) (mark : Char) : Bool :=
  c.sees 0 (· = mark) && c.sees 1 (· = mark) && c.sees 2 (· = mark) && c.seesOrEnds 3 isSeparator

/-- Whether a marker of the start or the end of a document starts here. -/
def seesAnyMarker (c : Cursor) : Bool := c.seesMarker '-' || c.seesMarker '.'

end Cursor

end ConversionCoverage.Yaml
