import ConversionCoverage.Binary64.Decimal
import ConversionCoverage.Host
import ConversionCoverage.Json
import ConversionCoverage.Text.Numeral

/-!
# Reading JSON

A document is one value with blanks around it. Beyond the standard the reader takes the words
`NaN`, `Infinity` and `-Infinity`, keeps halves of surrogate pairs that escapes bring in, and of
two members with one name keeps the later value. A complaint names the place where it arose.
-/

namespace ConversionCoverage.Json

inductive Complaint where
  | expectingValue
  | expectingName
  | expectingColon
  | expectingComma
  | unterminatedString
  | controlCharacter
  | invalidEscape
  | invalidUnicodeEscape
  | extraData
  | byteOrderMark
  deriving DecidableEq, Repr

def Complaint.message : Complaint → Text
  | .expectingValue => "Expecting value"
  | .expectingName => "Expecting property name enclosed in double quotes"
  | .expectingColon => "Expecting ':' delimiter"
  | .expectingComma => "Expecting ',' delimiter"
  | .unterminatedString => "Unterminated string starting at"
  | .controlCharacter => "Invalid control character at"
  | .invalidEscape => "Invalid \\escape"
  | .invalidUnicodeEscape => "Invalid \\uXXXX escape"
  | .extraData => "Extra data"
  | .byteOrderMark => "Unexpected UTF-8 BOM (decode using utf-8-sig)"

/-- Why a document could not be read. -/
inductive Fault where
  /-- A complaint about the place before which `offset` code points stand. -/
  | malformed (complaint : Complaint) (line column offset : Nat)
  /-- An integer with too many digits. -/
  | numeral (fault : Numeral.Fault)
  /-- Arrays, or objects, within too many others. -/
  | tooDeep (ofArrays : Bool)
  deriving DecidableEq, Repr

def Fault.message : Fault → Text
  | .malformed complaint line column offset =>
    complaint.message ++ ": line " ++ Text.ofNat line ++ " column " ++ Text.ofNat column ++
      " (char " ++ Text.ofNat offset ++ ")"
  | .numeral fault => fault.message
  | .tooDeep ofArrays =>
    "maximum recursion depth exceeded while decoding a JSON " ++
      (if ofArrays then "array" else "object") ++ " from a unicode string"

/-- Whether the fault is one of what the document says, rather than of the depth of its nesting. -/
def Fault.concernsValue : Fault → Bool
  | .malformed _ _ _ _ | .numeral _ => true
  | .tooDeep _ => false

/-- A fault met while reading, its place given by the number of code points from there on. -/
inductive Stop where
  | complaint (complaint : Complaint) (remaining : Nat)
  | numeral (fault : Numeral.Fault)
  | tooDeep (ofArrays : Bool)
  deriving DecidableEq, Repr

def isBlank (c : CodePoint) : Bool := c = ' ' || c = '\t' || c = '\n' || c = '\r'

def skipBlanks (t : Text) : Text := t.dropWhile isBlank

/-- The code point that a letter stands for after a backslash. -/
def simpleEscape? : CodePoint → Option Char
  | .char '"' => some '"'
  | .char '\\' => some '\\'
  | .char '/' => some '/'
  | .char 'b' => some '\x08'
  | .char 'f' => some '\x0c'
  | .char 'n' => some '\n'
  | .char 'r' => some '\r'
  | .char 't' => some '\t'
  | _ => none

/-- The part of an escape that has been read: a backslash, or `\u` and some digits. `place` is the
text from the `u` on. -/
inductive Escape where
  | backslash
  | digits (place : Text) (left value : Nat)

/-- The first half of a pair together with a second one. -/
def joinHalves (high : Fin 2048) (n : Nat) : Option CodePoint :=
  if 0xDC00 ≤ n ∧ n < 0xE000 then
    CodePoint.ofNat? (0x10000 + high.val * 0x400 + (n - 0xDC00))
  else none

/-- The code points of a string up to its closing quote, and the text after the quote. `start` is
the text from the opening quote on; `high?` is a first half that an escape has
just brought in, waiting for its second half. -/
def readQuoted (start : Text) (high? : Option (Fin 2048)) (escape? : Option Escape) :
    Text → Except Stop (Text × Text)
  | [] =>
    match escape? with
    | some (.digits place _ _) => .error (.complaint .invalidUnicodeEscape place.length)
    | _ => .error (.complaint .unterminatedString start.length)
  | c :: rest =>
    let waiting : Text := (high?.map CodePoint.half).toList
    match escape? with
    | none =>
      if c = '"' then .ok (waiting, rest)
      else if c = '\\' then readQuoted start high? (some .backslash) rest
      else if c.toNat < 0x20 then .error (.complaint .controlCharacter (rest.length + 1))
      else do
        let (t, after) ← readQuoted start none none rest
        return (waiting ++ c :: t, after)
    | some .backslash =>
      if c = 'u' then readQuoted start high? (some (.digits (c :: rest) 4 0)) rest
      else match simpleEscape? c with
        | none => .error (.complaint .invalidEscape (rest.length + 2))
        | some e => do
          let (t, after) ← readQuoted start none none rest
          return (waiting ++ .char e :: t, after)
    | some (.digits place left value) =>
      match c.hexValue? with
      | none => .error (.complaint .invalidUnicodeEscape place.length)
      | some d =>
        let value := value * 16 + d
        if 1 < left then readQuoted start high? (some (.digits place (left - 1) value)) rest
        else if rest = [] then .error (.complaint .invalidUnicodeEscape place.length)
        else match high?.bind (joinHalves · value) with
          | some pair => do
            let (t, after) ← readQuoted start none none rest
            return (pair :: t, after)
          | none =>
            if h : 0xD800 ≤ value ∧ value < 0xDC00 then do
              let (t, after) ← readQuoted start (some ⟨value - 0xD800, by omega⟩) none rest
              return (waiting ++ t, after)
            else do
              let (t, after) ← readQuoted start none none rest
              return (waiting ++ (CodePoint.ofNat? value).toList ++ t, after)

def spanDigits (t : Text) : Text × Text := t.span fun c => c.asciiDigit?.isSome

/-- The fraction of a number: a point and digits, or nothing. -/
def spanFraction (t : Text) : Text × Text :=
  match t with
  | .char '.' :: rest =>
    let (digits, after) := spanDigits rest
    if digits = [] then ([], t) else (digits, after)
  | _ => ([], t)

/-- The exponent of a number: `e`, perhaps a sign, and digits, or nothing. -/
def spanExponent (t : Text) : Option Int × Text :=
  match t with
  | .char c :: rest =>
    if c = 'e' ∨ c = 'E' then
      let (negative, rest) : Bool × Text := match rest with
        | .char '-' :: rest => (true, rest)
        | .char '+' :: rest => (false, rest)
        | rest => (false, rest)
      let (digits, after) := spanDigits rest
      if digits = [] then (none, t)
      else
        let n : Int := Binary64.digitsValue digits
        (some (if negative then -n else n), after)
    else (none, t)
  | _ => (none, t)

/-- The whole part of a number: a single zero, or digits that start with another one. -/
def spanWhole : Text → Text × Text
  | .char '0' :: rest => (['0'], rest)
  | t => spanDigits t

/-- A number without its sign; `place` is the text from its start on. An integer has at most
`maxDigits` digits. -/
def readUnsigned (maxDigits : Nat) (place : Text) (negative : Bool) (t : Text) :
    Except Stop (Json × Text) :=
  let (whole, rest) := spanWhole t
  if whole = [] then .error (.complaint .expectingValue place.length)
  else
    let (fraction, rest) := spanFraction rest
    let (exponent?, rest) := spanExponent rest
    if fraction = [] ∧ exponent? = none then
      if maxDigits < whole.length then .error (.numeral (.tooLong whole.length))
      else
        let n : Int := Binary64.digitsValue whole
        .ok (.int (if negative then -n else n), rest)
    else
      let exponent := exponent?.getD 0 - fraction.length
      .ok (.float (Binary64.ofDecimal negative (Binary64.digitsValue (whole ++ fraction)) exponent),
        rest)

/-- The text after a word that it starts with. -/
def dropWord? (word t : Text) : Option Text :=
  if word.isPrefixOf t then some (t.drop word.length) else none

/-- A value that is a word or a number. -/
def readPlain (maxDigits : Nat) (t : Text) : Except Stop (Json × Text) :=
  let word? (word : String) (j : Json) : Option (Json × Text) :=
    (dropWord? word t).map fun rest => (j, rest)
  let found := word? "null" .null <|> word? "true" (.bool true) <|> word? "false" (.bool false) <|>
    word? "NaN" (.float .nan) <|> word? "Infinity" (.float (.infinite false)) <|>
    word? "-Infinity" (.float (.infinite true))
  match found with
  | some result => .ok result
  | none =>
    match t with
    | .char '-' :: rest => readUnsigned maxDigits t true rest
    | _ => readUnsigned maxDigits t false t

mutual

/-- The value at the start of a text, and the text after it. At most `depth` arrays and objects
lie in each other. -/
def readValue (maxDigits : Nat) : (fuel depth : Nat) → Text → Except Stop (Json × Text)
  | 0, _, t => .error (.complaint .expectingValue t.length)
  | fuel + 1, depth, t =>
    match t with
    | .char '"' :: rest => do
      let (s, after) ← readQuoted t none none rest
      return (.text s, after)
    | .char '[' :: rest =>
      match depth with
      | 0 => .error (.tooDeep true)
      | depth + 1 =>
        match skipBlanks rest with
        | .char ']' :: after => .ok (.array [], after)
        | rest => do
          let (items, after) ← readItems maxDigits fuel depth rest
          return (.array items, after)
    | .char '\x7b' :: rest =>
      match depth with
      | 0 => .error (.tooDeep false)
      | depth + 1 =>
        match skipBlanks rest with
        | .char '\x7d' :: after => .ok (.object [], after)
        | rest => do
          let (members, after) ← readMembers maxDigits fuel depth rest
          return (.object (lastOfEach members), after)
    | _ => readPlain maxDigits t

/-- Items separated by commas up to the closing bracket of an array. -/
def readItems (maxDigits : Nat) : (fuel depth : Nat) → Text → Except Stop (List Json × Text)
  | 0, _, t => .error (.complaint .expectingValue t.length)
  | fuel + 1, depth, t => do
    let (item, rest) ← readValue maxDigits fuel depth t
    match skipBlanks rest with
    | .char ']' :: after => return ([item], after)
    | .char ',' :: rest =>
      let (items, after) ← readItems maxDigits fuel depth (skipBlanks rest)
      return (item :: items, after)
    | rest => .error (.complaint .expectingComma rest.length)

/-- Members separated by commas up to the closing bracket of an object. -/
def readMembers (maxDigits : Nat) :
    (fuel depth : Nat) → Text → Except Stop (List (Text × Json) × Text)
  | 0, _, t => .error (.complaint .expectingName t.length)
  | fuel + 1, depth, t =>
    match t with
    | .char '"' :: rest => do
      let (name, rest) ← readQuoted t none none rest
      match skipBlanks rest with
      | .char ':' :: rest =>
        let (value, rest) ← readValue maxDigits fuel depth (skipBlanks rest)
        match skipBlanks rest with
        | .char '\x7d' :: after => return ([(name, value)], after)
        | .char ',' :: rest =>
          let (members, after) ← readMembers maxDigits fuel depth (skipBlanks rest)
          return ((name, value) :: members, after)
        | rest => .error (.complaint .expectingComma rest.length)
      | rest => .error (.complaint .expectingColon rest.length)
    | _ => .error (.complaint .expectingName t.length)

end

/-- The value of a whole document with at most `depth` arrays and objects in each other. Each step
of the reader takes a code point or goes one level down, so twice the length bounds the steps. -/
def readNested (maxDigits depth : Nat) (t : Text) : Except Stop Json :=
  match t with
  | .char '\ufeff' :: _ => .error (.complaint .byteOrderMark t.length)
  | _ => do
    let (j, rest) ← readValue maxDigits (2 * t.length + 2) depth (skipBlanks t)
    match skipBlanks rest with
    | [] => return j
    | rest => .error (.complaint .extraData rest.length)

variable [Host]

def readDocument (maxDigits : Nat) (t : Text) : Except Stop Json :=
  readNested maxDigits (Host.room .reading) t

/-- The fault of a document, its place counted from the start in lines, columns and code points. -/
def Stop.toFault (t : Text) : Stop → Fault
  | .complaint what remaining =>
    let before := t.take (t.length - remaining)
    let line := before.count (.char '\n') + 1
    let column := (before.reverse.takeWhile (· ≠ .char '\n')).length + 1
    .malformed what line column before.length
  | .numeral cause => .numeral cause
  | .tooDeep ofArrays => .tooDeep ofArrays

/-- The value of a document with integers of at most `maxDigits` digits. -/
def readWithin (maxDigits : Nat) (t : Text) : Except Fault Json :=
  (readDocument maxDigits t).mapError (Stop.toFault t)

def read (t : Text) : Except Fault Json := readWithin Numeral.maxDigits t

end ConversionCoverage.Json
