import ConversionCoverage.Text.Utf8
import ConversionCoverage.Yaml.Scalar

/-!
# Tokens of a YAML document

The first reading of a document turns it into tokens. Indentation becomes tokens that open and
close block collections. What comes before a colon may turn out to be a key only when the colon is
met, so the lexer keeps the places where a key may have started and inserts the tokens of the key
there. A key on one line reaches at most 1024 code points back.
-/

namespace ConversionCoverage.Yaml

/-- A line at the head of a document that starts with a percent sign. -/
inductive Directive where
  | version (major minor : Nat)
  | tagHandle (handle target : Text)
  | other
  deriving DecidableEq, Repr

inductive Token where
  | directive (d : Directive)
  | documentStart
  | documentEnd
  | blockSequenceStart
  | blockMappingStart
  | blockEnd
  | flowSequenceStart
  | flowSequenceEnd
  | flowMappingStart
  | flowMappingEnd
  | blockEntry
  | flowEntry
  | key
  | value
  | alias (name : Text)
  | anchor (name : Text)
  | tag (handle : Option Text) (suffix : Text)
  | scalar (text : Text) (isPlain : Bool)
  deriving DecidableEq, Repr

namespace Token

/-! ## Names, tags and directives -/

/-- Whether a code point may stand in a name. -/
def isNamePoint (c : CodePoint) : Bool :=
  match c with
  | .char c => c.isAlphanum || c == '-' || c == '_'
  | .half _ => false

/-- The name of an anchor or an alias; the cursor stands at its sign. -/
def anchorName (c : Cursor) : Except Fault (Text × Cursor) :=
  let (name, after) := c.next.span isNamePoint
  let closes := after.seesOrEnds 0 fun p =>
    isSeparator p || ("?:,]\x7d%@\x60" : Text).contains p
  if name = [] ∨ closes = false then .error .malformed else .ok (name, after)

/-- Whether a code point may stand in a tag. -/
def isTagPoint (c : CodePoint) : Bool :=
  match c with
  | .char c => c.isAlphanum || "-;/?:@&=+$,_.!~*'()[]%".toList.contains c
  | .half _ => false

/-- The bytes that a text writes as percent signs with two hexadecimal digits each, and the rest
of the text. -/
def percentBytes : Text → Except Fault (List UInt8 × Text)
  | .char '%' :: h :: l :: rest =>
    match h.hexValue?, l.hexValue? with
    | some high, some low => do
      let (bytes, after) ← percentBytes rest
      return (UInt8.ofNat (high * 16 + low) :: bytes, after)
    | _, _ => .error .malformed
  | .char '%' :: _ => .error .malformed
  | t => .ok ([], t)

/-- The text of a tag, its percent signs replaced by the characters that they write. -/
def decodeTag : (fuel : Nat) → Text → Except Fault Text
  | 0, _ => .error .malformed
  | fuel + 1, t =>
    match t with
    | [] => .ok []
    | .char '%' :: _ => do
      let (bytes, rest) ← percentBytes t
      match Utf8.decode bytes with
      | .ok characters => return characters ++ (← decodeTag fuel rest)
      | .error _ => throw .malformed
    | p :: rest => do return p :: (← decodeTag fuel rest)

/-- The text of a tag, and the place after it. -/
def tagText (c : Cursor) : Except Fault (Text × Cursor) := do
  let (run, after) := c.span isTagPoint
  if run = [] then throw .malformed
  return (← decodeTag (run.length + 1) run, after)

/-- The handle of a tag: an exclamation mark, or a name between two of them. -/
def tagHandle (c : Cursor) : Except Fault (Text × Cursor) :=
  if c.sees 0 (· = '!') = false then .error .malformed
  else if c.sees 1 (· = ' ') then .ok (['!'], c.next)
  else
    let (name, after) := c.next.span isNamePoint
    if after.sees 0 (· = '!') then .ok ("!" ++ name ++ "!", after.next)
    else .error .malformed

/-- A tag; the cursor stands at its exclamation mark. -/
def readTag (c : Cursor) : Except Fault (Token × Cursor) := do
  let (token, after) ←
    if c.sees 1 (· = '<') then do
      let (suffix, c) ← tagText (c.advance 2)
      if c.sees 0 (· = '>') then pure (Token.tag none suffix, c.next) else throw Fault.malformed
    else if c.seesOrEnds 1 isSeparator then pure (Token.tag none ['!'], c.next)
    else
      let word := c.next.rest.takeWhile fun p => p ≠ .char ' ' && !isBreak p
      let (handle, c) ←
        if word.contains '!' then tagHandle c else pure ((['!'] : Text), c.next)
      let (suffix, c) ← tagText c
      pure (Token.tag (some handle) suffix, c)
  if after.seesOrEnds 0 fun p => p = ' ' || isBreak p then return (token, after)
  else throw .malformed

/-- A run of ASCII digits as a number, and the place after it. -/
def versionNumber (c : Cursor) : Except Fault (Nat × Cursor) :=
  let (digits, after) := c.span fun p => p.asciiDigit?.isSome
  if digits = [] then .error .malformed else .ok (Binary64.digitsValue digits, after)

/-- Whether a word ends here: at a space, a line break or the end. -/
def wordEnds (c : Cursor) : Bool := c.seesOrEnds 0 fun p => p = ' ' || isBreak p

/-- A directive and the place of the next line; the cursor stands at the percent sign. -/
def readDirective (c : Cursor) : Except Fault (Token × Cursor) := do
  let (name, c) := c.next.span isNamePoint
  if name = [] ∨ wordEnds c = false then throw .malformed
  let (d, c) ←
    if name = "YAML" then do
      let (major, c) ← versionNumber c.skipSpaces
      if c.sees 0 (· = '.') = false then throw .malformed
      let (minor, c) ← versionNumber c.next
      if wordEnds c = false then throw .malformed
      pure (Directive.version major minor, c)
    else if name = "TAG" then do
      let (handle, c) ← tagHandle c.skipSpaces
      if c.sees 0 (· = ' ') = false then throw .malformed
      let (target, c) ← tagText c.skipSpaces
      if wordEnds c = false then throw .malformed
      pure (Directive.tagHandle handle target, c)
    else pure (Directive.other, c.skip (! isBreak ·))
  return (.directive d, ← Scalar.restOfLine c)

end Token

/-! ## The lexer -/

/-- A place where a key may have started: the number of tokens before it and where it lies. A
required key starts a line of a block mapping, so a colon has to follow. -/
structure PossibleKey where
  number : Nat
  required : Bool
  index : Nat
  line : Nat
  column : Nat

/-- The state of the lexer: the rest of the document, the tokens so far with the last one first,
the depth of flow collections, the columns of the open block collections from the inside out,
whether a key may start here, and the possible keys by depth of flow collections. -/
structure Lexer where
  cursor : Cursor
  tokens : List Token
  count : Nat
  flowDepth : Nat
  indents : List Nat
  keyAllowed : Bool
  keys : List (Nat × PossibleKey)

namespace Lexer

def ofText (t : Text) : Lexer := ⟨.ofText t, [], 0, 0, [], true, []⟩

/-- The column of the innermost block collection, or `-1` outside all of them. -/
def indent (l : Lexer) : Int :=
  match l.indents with
  | [] => -1
  | column :: _ => column

def push (l : Lexer) (token : Token) : Lexer :=
  { l with tokens := token :: l.tokens, count := l.count + 1 }

/-- Inserts a token behind the first `number` ones. -/
def insert (l : Lexer) (number : Nat) (token : Token) : Lexer :=
  let (later, earlier) := l.tokens.splitAt (l.count - number)
  { l with tokens := later ++ token :: earlier, count := l.count + 1 }

def goTo (l : Lexer) (cursor : Cursor) : Lexer := { l with cursor }

def allowKey (l : Lexer) (keyAllowed : Bool) : Lexer := { l with keyAllowed }

/-- Forgets the possible keys that lie on another line or too far back; none may be required. -/
def dropStaleKeys (l : Lexer) : Except Fault Lexer :=
  let isStale (k : Nat × PossibleKey) : Bool :=
    k.2.line != l.cursor.line || k.2.index + 1024 < l.cursor.index
  if l.keys.any fun k => isStale k && k.2.required then .error .malformed
  else .ok { l with keys := l.keys.filter (! isStale ·) }

/-- Forgets the possible key at this depth, which may not be required. -/
def dropKey (l : Lexer) : Except Fault Lexer :=
  match l.keys.lookup l.flowDepth with
  | none => .ok l
  | some key =>
    if key.required then .error .malformed
    else .ok { l with keys := l.keys.filter (·.1 ≠ l.flowDepth) }

/-- Notes that the next token may be the start of a key. -/
def noteKey (l : Lexer) : Except Fault Lexer :=
  if l.keyAllowed then do
    let required := l.flowDepth == 0 && l.indent == l.cursor.column
    let key : PossibleKey := ⟨l.count, required, l.cursor.index, l.cursor.line, l.cursor.column⟩
    let l ← l.dropKey
    return { l with keys := (l.flowDepth, key) :: l.keys }
  else .ok l

/-- Closes the block collections that are indented further than `column`. -/
def unwind (l : Lexer) (column : Int) : Lexer :=
  if l.flowDepth ≠ 0 then l
  else
    let closed := (l.indents.takeWhile fun (i : Nat) => column < i).length
    { l with
      tokens := List.replicate closed .blockEnd ++ l.tokens
      count := l.count + closed
      indents := l.indents.drop closed }

/-- Opens a block collection at `column`, behind the first `number` tokens, if none is open there. -/
def openBlock (l : Lexer) (column number : Nat) (token : Token) : Lexer :=
  if l.indent < column then { l.insert number token with indents := column :: l.indents } else l

/-- Adds a token that is `width` code points long. -/
def take (l : Lexer) (width : Nat) (token : Token) : Lexer :=
  (l.goTo (l.cursor.advance width)).push token

/-- The place after comments, blank lines and the spaces before the next token. A new line allows
a key outside flow collections. -/
def skipToToken : (fuel : Nat) → Lexer → Lexer
  | 0, l => l
  | fuel + 1, l =>
    let l := l.goTo l.cursor.skipSpaces.skipComment
    if l.cursor.sees 0 isBreak then
      let l := l.goTo l.cursor.next
      skipToToken fuel (if l.flowDepth = 0 then l.allowKey true else l)
    else l

/-- The start or end of a document. -/
def documentMarker (l : Lexer) (token : Token) : Except Fault Lexer := do
  let l ← (l.unwind (-1)).dropKey
  return (l.allowKey false).take 3 token

/-- The opening bracket of a flow collection. -/
def flowStart (l : Lexer) (token : Token) : Except Fault Lexer := do
  let l ← l.noteKey
  return ({ l with flowDepth := l.flowDepth + 1 }.allowKey true).take 1 token

/-- The closing bracket of a flow collection. -/
def flowEnd (l : Lexer) (token : Token) : Except Fault Lexer := do
  let l ← l.dropKey
  return ({ l with flowDepth := l.flowDepth - 1 }.allowKey false).take 1 token

def flowEntry (l : Lexer) : Except Fault Lexer := do
  let l ← l.dropKey
  return (l.allowKey true).take 1 .flowEntry

/-- A hyphen before an item of a block sequence. -/
def blockEntry (l : Lexer) : Except Fault Lexer := do
  if l.flowDepth = 0 ∧ l.keyAllowed = false then throw .malformed
  let l :=
    if l.flowDepth = 0 then l.openBlock l.cursor.column l.count .blockSequenceStart else l
  let l ← (l.allowKey true).dropKey
  return l.take 1 .blockEntry

/-- A question mark before a key. -/
def key (l : Lexer) : Except Fault Lexer := do
  if l.flowDepth = 0 ∧ l.keyAllowed = false then throw .malformed
  let l :=
    if l.flowDepth = 0 then l.openBlock l.cursor.column l.count .blockMappingStart else l
  let l ← (l.allowKey (l.flowDepth = 0)).dropKey
  return l.take 1 .key

/-- A colon before a value. What was possibly a key becomes one. -/
def value (l : Lexer) : Except Fault Lexer := do
  match l.keys.lookup l.flowDepth with
  | some key =>
    let l := { l with keys := l.keys.filter (·.1 ≠ l.flowDepth) }
    let l := l.insert key.number .key
    let l :=
      if l.flowDepth = 0 then l.openBlock key.column key.number .blockMappingStart else l
    return (l.allowKey false).take 1 .value
  | none =>
    if l.flowDepth = 0 ∧ l.keyAllowed = false then throw .malformed
    let l :=
      if l.flowDepth = 0 then l.openBlock l.cursor.column l.count .blockMappingStart else l
    let l ← (l.allowKey (l.flowDepth = 0)).dropKey
    return l.take 1 .value

/-- A token that may be the start of a key and is read by `read`. -/
def nodeToken (l : Lexer) (read : Cursor → Except Fault (Token × Cursor)) :
    Except Fault Lexer := do
  let l ← l.noteKey
  let (token, cursor) ← read l.cursor
  return ((l.allowKey false).goTo cursor).push token

def blockScalar (l : Lexer) (folded : Bool) : Except Fault Lexer := do
  let l ← (l.allowKey true).dropKey
  let (text, cursor) ← Scalar.block folded l.indent l.cursor
  return (l.goTo cursor).push (.scalar text false)

/-- A plain scalar. After one that ends with its line a key may start. -/
def plainScalar (l : Lexer) : Except Fault Lexer := do
  let l ← l.noteKey
  let (text, newLine, cursor) := Scalar.plain (l.flowDepth ≠ 0) (l.indent + 1) l.cursor
  return ((l.allowKey newLine).goTo cursor).push (.scalar text true)

/-- Whether a plain scalar starts here. -/
def startsPlain (l : Lexer) : Bool :=
  let c := l.cursor
  let first := c.sees 0 fun p =>
    !isSeparator p && !("-?:,[]\x7b\x7d#&*!|>'\"%@\x60" : Text).contains p
  let second := c.sees 1 (! isSeparator ·) &&
    c.sees 0 fun p => p = '-' || (l.flowDepth == 0 && (p = '?' || p = ':'))
  first || second

/-- The next token, which starts at the cursor with the code point `p`. -/
def lexAt (l : Lexer) (p : CodePoint) : Except Fault Lexer :=
  let c := l.cursor
  let wordEnds := c.seesOrEnds 1 isSeparator
  let inFlow := l.flowDepth != 0
  if p = '%' ∧ c.column = 0 then do
    let l ← (l.unwind (-1)).dropKey
    let (token, cursor) ← Token.readDirective l.cursor
    return ((l.allowKey false).goTo cursor).push token
  else if c.column = 0 ∧ c.seesMarker '-' then l.documentMarker .documentStart
  else if c.column = 0 ∧ c.seesMarker '.' then l.documentMarker .documentEnd
  else if p = '[' then l.flowStart .flowSequenceStart
  else if p = '\x7b' then l.flowStart .flowMappingStart
  else if p = ']' then l.flowEnd .flowSequenceEnd
  else if p = '\x7d' then l.flowEnd .flowMappingEnd
  else if p = ',' then l.flowEntry
  else if p = '-' ∧ wordEnds then l.blockEntry
  else if p = '?' ∧ (inFlow ∨ wordEnds) then l.key
  else if p = ':' ∧ (inFlow ∨ wordEnds) then l.value
  else if p = '*' then
    l.nodeToken fun c => do
      let (name, after) ← Token.anchorName c
      return (.alias name, after)
  else if p = '&' then
    l.nodeToken fun c => do
      let (name, after) ← Token.anchorName c
      return (.anchor name, after)
  else if p = '!' then l.nodeToken Token.readTag
  else if p = '|' ∧ inFlow = false then l.blockScalar false
  else if p = '>' ∧ inFlow = false then l.blockScalar true
  else if p = '\'' ∨ p = '"' then
    l.nodeToken fun c => do
      let (text, after) ← Scalar.quoted (p = '"') c
      return (.scalar text false, after)
  else if l.startsPlain then l.plainScalar
  else .error .malformed

/-- Goes over the next token. At the end of the document there is none, and the result says so.
Before the token lie at most `fuel` lines. -/
def lexNext (fuel : Nat) (l : Lexer) : Except Fault (Lexer × Bool) := do
  let l ← (l.skipToToken fuel).dropStaleKeys
  let l := l.unwind l.cursor.column
  match l.cursor.peek 0 with
  | none =>
    let l ← (l.unwind (-1)).dropKey
    return (l, true)
  | some p => return (← l.lexAt p, false)

/-- The tokens that can no longer change because a key may have started before them. -/
def settled (l : Lexer) : List Token :=
  let number := (l.keys.map (·.2.number)).foldl min l.count
  l.tokens.reverse.take number

/-- The tokens up to the end of the document, or up to a fault. Each step goes over a code point. -/
def lex : (fuel : Nat) → Lexer → List Token × Option Fault
  | 0, l => (l.settled, some .malformed)
  | fuel + 1, l =>
    match l.lexNext (fuel + 1) with
    | .error fault => (l.settled, some fault)
    | .ok (l, true) => (l.tokens.reverse, none)
    | .ok (l, false) => lex fuel l

end Lexer

/-- Whether a document may hold a code point: tabs, line breaks and all that is printable in a wide
sense. -/
def isAllowed (c : CodePoint) : Bool :=
  let n := c.toNat
  n == 0x09 || n == 0x0A || n == 0x0D || (0x20 ≤ n && n ≤ 0x7E) || n == 0x85 ||
    (0xA0 ≤ n && n ≤ 0xD7FF) || (0xE000 ≤ n && n ≤ 0xFFFD) || 0x10000 ≤ n

/-- The tokens of a document, and the fault at which they end, if any. A byte order mark at the
start is no part of the document. -/
def Token.ofText (t : Text) : List Token × Option Fault :=
  if t.all isAllowed = false then ([], some .malformed)
  else
    let l := Lexer.ofText t
    let l := if l.cursor.sees 0 (· = '\ufeff') then l.goTo l.cursor.next else l
    l.lex (t.length + 1)

end ConversionCoverage.Yaml
