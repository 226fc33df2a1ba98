import ConversionCoverage.Text.Blank
import ConversionCoverage.Text.Digit
import ConversionCoverage.Text.Quoted

/-!
# Integer numerals

Integers as people write them: blanks around, an optional sign, for the bases two, eight and
sixteen an optional marker such as `0o`, and digits of any script with single underscores
between them. Decimal numerals of more than 4300 digits are neither read nor written.
-/

namespace ConversionCoverage.Numeral

/-- The largest number of decimal digits of an integer that is read or written. -/
def maxDigits : Nat := 4300

inductive Fault where
  /-- The text, shown as `shown`, is no numeral in this base. -/
  | malformed (base : Nat) (shown : Text)
  /-- A decimal numeral with this many digits is too long to be read. -/
  | tooLong (digits : Nat)
  /-- An integer has too many decimal digits to be written. -/
  | tooLongToWrite
  deriving DecidableEq, Repr

/-- The wording of a fault; of a text that is no numeral only the start is shown. -/
def Fault.message : Fault → Text
  | .malformed base shown =>
    "invalid literal for int() with base " ++ Text.ofNat base ++ ": " ++ shown.take 200
  | .tooLong digits =>
    "Exceeds the limit (4300 digits) for integer string conversion: value has " ++
      Text.ofNat digits ++ " digits; use sys.set_int_max_str_digits() to increase the limit"
  | .tooLongToWrite =>
    "Exceeds the limit (4300 digits) for integer string conversion; " ++
      "use sys.set_int_max_str_digits() to increase the limit"

def digit? (base : Nat) (c : CodePoint) : Option Nat :=
  (c.decimalValue? <|> c.hexValue?).filter (· < base)

/-- The letter that marks the base after a zero. -/
def marker? : Nat → Option Char
  | 2 => some 'b'
  | 8 => some 'o'
  | 16 => some 'x'
  | _ => none

/-- The text after a marker of the base and one underscore, where these are present. -/
def dropMarker (base : Nat) : Text → Text
  | c :: .char m :: rest =>
    if c.decimalValue? = some 0 ∧ marker? base = some m.toLower then
      match rest with
      | .char '_' :: rest => rest
      | _ => rest
    else c :: .char m :: rest
  | t => t

/-- Whether underscores stand only between digits: not first, not last, no two together. -/
def underscoresApart : Text → Bool
  | [] => true
  | .char '_' :: _ => false
  | [_] => true
  | _ :: .char '_' :: [] => false
  | _ :: .char '_' :: rest => underscoresApart rest
  | _ :: rest => underscoresApart rest

/-- The number written by a run of digits, underscores being skipped. -/
def value (base : Nat) (digits : Text) : Nat :=
  (digits.filterMap (digit? base)).foldl (fun n d => n * base + d) 0

/-- The natural number written by a text without blanks, sign and marker. `shown` is the whole
text as messages show it. -/
def readDigits (base : Nat) (shown t : Text) : Except Fault Nat :=
  let run := t.takeWhile fun c => (digit? base c).isSome || c = '_'
  let count := (run.filter (· ≠ .char '_')).length
  if ¬ underscoresApart run then .error (.malformed base shown)
  else if base = 10 ∧ maxDigits < count then .error (.tooLong count)
  else if run = [] ∨ run.length < t.length then .error (.malformed base shown)
  else .ok (value base run)

/-- The integer written by a text; messages show the text as `shown`. -/
def readShown (base : Nat) (shown t : Text) : Except Fault Int :=
  match t.trimBoth CodePoint.isSpace with
  | .char '-' :: rest => do return -(← readDigits base shown (dropMarker base rest))
  | .char '+' :: rest => do return ← readDigits base shown (dropMarker base rest)
  | rest => do return ← readDigits base shown (dropMarker base rest)

def read (base : Nat) (t : Text) : Except Fault Int := readShown base t.quoted t

def readBytes (bytes : List UInt8) : Except Fault Int :=
  let points : Text := bytes.map fun b =>
    if b < 0x80 then .char (Char.ofNat b.toNat) else .char '?'
  readShown 10 (Text.quotedBytes bytes) points

def write (n : Int) : Except Fault Text :=
  if maxDigits < (Text.ofNat n.natAbs).length then .error .tooLongToWrite else .ok (Text.ofInt n)

end ConversionCoverage.Numeral
