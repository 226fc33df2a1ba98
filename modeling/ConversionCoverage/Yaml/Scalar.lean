import ConversionCoverage.Text.Digit
import ConversionCoverage.Yaml.Cursor
import ConversionCoverage.Yaml.Fault

/-!
# The text of scalars

Scalars in quotes, plain scalars and block scalars. A single line break inside a scalar that is
folded counts as a blank, and of several breaks the first is dropped. Each function starts at the
first code point of a scalar and returns its text and the place after it.
-/

namespace ConversionCoverage.Yaml.Scalar

/-- What a line break and the empty lines after it become when lines are folded. -/
def fold (lineBreak emptyLines : Text) : Text :=
  if lineBreak ≠ [.char '\n'] then lineBreak ++ emptyLines
  else if emptyLines = [] then [' ']
  else emptyLines

/-! ## Scalars in quotes -/

/-- The breaks of empty lines in a quoted scalar, and the place of the next code point. No document
marker may stand at the start of a line. -/
def quotedBreaks : (fuel : Nat) → Cursor → Except Fault (Text × Cursor)
  | 0, _ => .error .malformed
  | fuel + 1, c =>
    if c.seesAnyMarker then .error .malformed
    else
      let c := c.skip isBlank
      if c.sees 0 isBreak then do
        let (br, c) := c.lineBreak
        let (more, c) ← quotedBreaks fuel c
        return (br ++ more, c)
      else .ok ([], c)

/-- The code point that a letter stands for after a backslash. -/
def simpleEscape? (c : CodePoint) : Option Char :=
  match c with
  | .char '0' => some '\x00'
  | .char 'a' => some '\x07'
  | .char 'b' => some '\x08'
  | .char 't' | .char '\t' => some '\t'
  | .char 'n' => some '\n'
  | .char 'v' => some '\x0b'
  | .char 'f' => some '\x0c'
  | .char 'r' => some '\r'
  | .char 'e' => some '\x1b'
  | .char ' ' => some ' '
  | .char '"' => some '"'
  | .char '\\' => some '\\'
  | .char '/' => some '/'
  | .char 'N' => some '\x85'
  | .char '_' => some '\xa0'
  | .char 'L' => some '\u2028'
  | .char 'P' => some '\u2029'
  | _ => none

/-- The number of hexadecimal digits after a letter that stands for a code point by number. -/
def escapeWidth? (c : CodePoint) : Option Nat :=
  match c with
  | .char 'x' => some 2
  | .char 'u' => some 4
  | .char 'U' => some 8
  | _ => none

/-- The code point with the number that the next `width` hexadecimal digits write. -/
def numberedPoint (width : Nat) (c : Cursor) : Except Fault CodePoint :=
  let digits := (c.rest.take width).filterMap CodePoint.hexValue?
  if digits.length < width then .error .malformed
  else
    let n := digits.foldl (fun n d => n * 16 + d) 0
    match CodePoint.ofNat? n with
    | some p => .ok p
    | none => .error (if n < 0x80000000 then .codePointOutOfRange else .codePointTooLarge)

/-- The text of an escape; the cursor stands after the backslash. -/
def escaped (fuel : Nat) (c : Cursor) : Except Fault (Text × Cursor) :=
  match c.peek 0 with
  | none => .error .malformed
  | some p =>
    match simpleEscape? p, escapeWidth? p with
    | some e, _ => .ok ([.char e], c.next)
    | none, some width => do
      let point ← numberedPoint width c.next
      return ([point], c.next.advance width)
    | none, none =>
      if isBreak p then quotedBreaks fuel c.lineBreak.2 else .error .malformed

/-- The text of blanks and line breaks inside quotes. -/
def quotedBlanks (fuel : Nat) (c : Cursor) : Except Fault (Text × Cursor) :=
  let (blanks, c) := c.span isBlank
  match c.peek 0 with
  | none => .error .malformed
  | some p =>
    if isBreak p then do
      let (br, c) := c.lineBreak
      let (more, c) ← quotedBreaks fuel c
      return (fold br more, c)
    else .ok (blanks, c)

/-- The text up to the closing quote. Backslashes escape only between double quotes, and between
single quotes a quote is written twice. -/
def quotedBody (double : Bool) : (fuel : Nat) → Cursor → Except Fault (Text × Cursor)
  | 0, _ => .error .malformed
  | fuel + 1, c =>
    match c.peek 0 with
    | none => .error .malformed
    | some p =>
      if p = (if double then '"' else '\'') then
        if !double && c.sees 1 (· = '\'') then do
          let (t, after) ← quotedBody double fuel (c.advance 2)
          return (p :: t, after)
        else .ok ([], c.next)
      else if double ∧ p = '\\' then do
        let (e, c) ← escaped fuel c.next
        let (t, after) ← quotedBody double fuel c
        return (e ++ t, after)
      else if isSeparator p then do
        let (blanks, c) ← quotedBlanks fuel c
        let (t, after) ← quotedBody double fuel c
        return (blanks ++ t, after)
      else do
        let (t, after) ← quotedBody double fuel c.next
        return (p :: t, after)

def quoted (double : Bool) (c : Cursor) : Except Fault (Text × Cursor) :=
  quotedBody double (c.rest.length + 1) c.next

/-! ## Plain scalars -/

/-- Whether a code point is a bracket or a comma of a flow collection. -/
def isFlowMark (c : CodePoint) : Bool :=
  c = ',' || c = '[' || c = ']' || c = '\x7b' || c = '\x7d'

/-- The number of code points up to a place where a plain scalar pauses: a separator, a colon
before a separator, or inside a flow collection a mark of the collection. -/
def plainLength (inFlow : Bool) : Text → Nat
  | [] => 0
  | p :: rest =>
    let colonEnds := rest.head?.all fun q => isSeparator q || (inFlow && isFlowMark q)
    if isSeparator p || (p = ':' && colonEnds) || (inFlow && (isFlowMark p || p = '?')) then 0
    else plainLength inFlow rest + 1

/-- The breaks of empty lines after a line of a plain scalar, or nothing if a document marker
stands at the start of a line. -/
def plainBreaks : (fuel : Nat) → Cursor → Option Text × Cursor
  | 0, c => (some [], c)
  | fuel + 1, c =>
    let c := c.skipSpaces
    if c.sees 0 isBreak then
      let (br, c) := c.lineBreak
      if c.seesAnyMarker then (none, c)
      else
        let (more, c) := plainBreaks fuel c
        (more.map (br ++ ·), c)
    else (some [], c)

/-- What lies between two words of a plain scalar: the text it stands for, which is empty if the
scalar ends here, whether it spans lines, and the place after it. -/
def plainBlanks (fuel : Nat) (c : Cursor) : Text × Bool × Cursor :=
  let (blanks, c) := c.span (· = ' ')
  if c.sees 0 isBreak then
    let (br, c) := c.lineBreak
    if c.seesAnyMarker then ([], true, c)
    else
      match plainBreaks fuel c with
      | (none, c) => ([], true, c)
      | (some more, c) => (fold br more, true, c)
  else (blanks, false, c)

/-- The words of a plain scalar after the blanks `before`. The flag says whether the scalar was
left at the start of a line. -/
def plainBody (inFlow : Bool) (indent : Int) :
    (fuel : Nat) → (before : Text) → (newLine : Bool) → Cursor → Text × Bool × Cursor
  | 0, _, newLine, c => ([], newLine, c)
  | fuel + 1, before, newLine, c =>
    let length := plainLength inFlow c.rest
    if c.sees 0 (· = '#') ∨ length = 0 then ([], newLine, c)
    else
      let word := c.rest.take length
      let (blanks, newLine, c) := plainBlanks fuel (c.advance length)
      if blanks = [] ∨ c.sees 0 (· = '#') ∨ (inFlow = false ∧ (c.column : Int) < indent) then
        (before ++ word, newLine, c)
      else
        let (more, newLine, c) := plainBody inFlow indent fuel blanks newLine c
        (before ++ word ++ more, newLine, c)

/-- A plain scalar whose lines after the first are indented to column `indent` at least. -/
def plain (inFlow : Bool) (indent : Int) (c : Cursor) : Text × Bool × Cursor :=
  plainBody inFlow indent (c.rest.length + 1) [] false c

/-! ## Block scalars -/

/-- What becomes of the line breaks at the end of a block scalar. -/
inductive Chomping where
  | strip
  | clip
  | keep
  deriving DecidableEq, Repr

/-- A sign of chomping and the place after it. -/
def chompingSign (c : Cursor) : Chomping × Cursor :=
  match c.peek 0 with
  | some (.char '+') => (.keep, c.next)
  | some (.char '-') => (.strip, c.next)
  | _ => (.clip, c)

/-- A digit of indentation, which may not be zero, and the place after it. -/
def indentationDigit (c : Cursor) : Except Fault (Option Nat × Cursor) :=
  match (c.peek 0).bind CodePoint.asciiDigit? with
  | none => .ok (none, c)
  | some 0 => .error .malformed
  | some d => .ok (some d, c.next)

/-- The signs after the first code point of a block scalar, in either order. -/
def blockSigns (c : Cursor) : Except Fault (Chomping × Option Nat × Cursor) := do
  let (chomping, c₁) := chompingSign c
  let (digit, c₂) ← indentationDigit c₁
  let (chomping, c₃) := if c₁.index = c.index then chompingSign c₂ else (chomping, c₂)
  if c₃.seesOrEnds 0 fun p => p = ' ' || isBreak p then return (chomping, digit, c₃)
  else throw .malformed

/-- The place of the next line, if only blanks and a comment come before it. -/
def restOfLine (c : Cursor) : Except Fault Cursor :=
  let c := c.skipSpaces.skipComment
  if c.seesOrEnds 0 isBreak then .ok c.lineBreak.2 else .error .malformed

/-- Empty lines before a block scalar whose indentation is not given: their breaks, the column of
the rightmost space, and the place of the next code point. -/
def blockIndentation : (fuel : Nat) → (widest : Nat) → Cursor → Text × Nat × Cursor
  | 0, widest, c => ([], widest, c)
  | fuel + 1, widest, c =>
    if c.sees 0 (· = ' ') then blockIndentation fuel (max widest c.next.column) c.next
    else if c.sees 0 isBreak then
      let (br, c) := c.lineBreak
      let (more, widest, c) := blockIndentation fuel widest c
      (br ++ more, widest, c)
    else ([], widest, c)

/-- The breaks of lines that end before column `indent`, and the place of the next code point. -/
def blockBreaks (indent : Nat) : (fuel : Nat) → Cursor → Text × Cursor
  | 0, c => ([], c)
  | fuel + 1, c =>
    let c := c.skipIndentation indent
    if c.sees 0 isBreak then
      let (br, c) := c.lineBreak
      let (more, c) := blockBreaks indent fuel c
      (br ++ more, c)
    else ([], c)

/-- Whether a line of a block scalar goes on here. -/
def atContent (indent : Nat) (c : Cursor) : Bool := c.column == indent && !c.rest.isEmpty

/-- The lines of a block scalar. The result is the text up to the end of the last line, that line's
break, the breaks of the empty lines after it, and the place of the next code point. -/
def blockLines (folded : Bool) (indent : Nat) :
    (fuel : Nat) → (before : Text) → Cursor → Text × Text × Text × Cursor
  | 0, before, c => ([], [], before, c)
  | fuel + 1, before, c =>
    if atContent indent c then
      let startsBlank := c.sees 0 isBlank
      let (line, c) := c.span (! isBreak ·)
      let (br, c) := c.lineBreak
      let (breaks, c) := blockBreaks indent fuel c
      if atContent indent c then
        let joint : Text :=
          if folded && br = [.char '\n'] && !startsBlank && !c.sees 0 isBlank then
            if breaks = [] then [' '] else []
          else br
        let (more, last, breaks, c) := blockLines folded indent fuel breaks c
        (before ++ line ++ joint ++ more, last, breaks, c)
      else (before ++ line, br, breaks, c)
    else ([], [], before, c)

/-- A block scalar, which starts with `|` or `>`, inside a collection indented to `indent`. -/
def block (folded : Bool) (indent : Int) (c : Cursor) : Except Fault (Text × Cursor) := do
  let fuel := c.rest.length + 1
  let (chomping, digit, c) ← blockSigns c.next
  let c ← restOfLine c
  let least := (max 1 (indent + 1)).toNat
  let (column, breaks, c) := match digit with
    | none =>
      let (breaks, widest, c) := blockIndentation fuel 0 c
      (max least widest, breaks, c)
    | some d =>
      let column := least + d - 1
      let (breaks, c) := blockBreaks column fuel c
      (column, breaks, c)
  let (text, last, breaks, c) := blockLines folded column fuel breaks c
  return match chomping with
    | .strip => (text, c)
    | .clip => (text ++ last, c)
    | .keep => (text ++ last ++ breaks, c)

end ConversionCoverage.Yaml.Scalar
