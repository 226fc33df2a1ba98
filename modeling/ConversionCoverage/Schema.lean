import ConversionCoverage.Datum.Written
import ConversionCoverage.Text.LetterCase
import ConversionCoverage.Text.Utf8
import ConversionCoverage.Validation

/-!
# Checks on plain data

How the fields of a mapping are found and how their values are read. Checks are generous where a
value has an obvious meaning: numbers and words stand for truth values, numerals for integers, and
bytes for the text that they encode.
-/

namespace ConversionCoverage

/-- A field of a mapping. Documents write it under its wire name or under its plain name; where
both are present the wire name counts. -/
structure Field where
  wire : Text
  plain : Text
  deriving DecidableEq, Repr

namespace Field

/-- The value of a field and the name under which it stands. -/
def find? (field : Field) (entries : List (Datum × Datum)) : Option (Text × Datum) :=
  match Datum.field? field.wire entries with
  | some value => some (field.wire, value)
  | none => (Datum.field? field.plain entries).map fun value => (field.plain, value)

/-- The checked value of a field that must be there. -/
def required {α : Type} (field : Field) (check : Datum → Checked α)
    (entries : List (Datum × Datum)) : Checked α :=
  match field.find? entries with
  | some (name, value) => (check value).within (.key name)
  | none => (Checked.problem .missing).within (.key field.wire)

def optional {α : Type} (field : Field) (default : α) (check : Datum → Checked α)
    (entries : List (Datum × Datum)) : Checked α :=
  match field.find? entries with
  | some (name, value) => (check value).within (.key name)
  | none => .ok default

end Field

namespace Datum

/-- The text of a datum, or of the bytes that encode it. -/
def asText : Datum → Checked Text
  | .text t => .ok t
  | .bytes bs =>
    match Utf8.decode bs with
    | .ok t => .ok t
    | .error _ => .problem .notUnicode
  | _ => .problem .notText

def asList (d : Datum) : Checked (List Datum) :=
  match d.opened with
  | .list items | .set items => .ok items
  | .pair a b => .ok [a, b]
  | _ => .problem .notList

def asMapping (shape : Shape) (d : Datum) : Checked (List (Datum × Datum)) :=
  match d.opened with
  | .mapping entries => .ok entries
  | _ => .problem (.notShape shape)

/-- The words for true and for false. -/
def truthWords : List (String × Bool) := [
  ("0", false), ("off", false), ("f", false), ("false", false), ("n", false), ("no", false),
  ("1", true), ("on", true), ("t", true), ("true", true), ("y", true), ("yes", true)]

/-- The truth value of a word, in any case. -/
def boolOfText (t : Text) : Checked Bool :=
  if t.any Utf8.isHalf then .problem .notUnicode
  else match truthWords.find? fun (word, _) => t.toAsciiSmall = word with
    | some (_, b) => .ok b
    | none => .problem .unknownBool

def boolOfInt (n : Int) : Checked Bool :=
  if n = 0 then .ok false else if n = 1 then .ok true else .problem .unknownBool

/-- Whether an integer has a place among signed numbers of 64 bits. -/
def fitsInt64 (n : Int) : Bool := -0x8000000000000000 ≤ n && n < 0x8000000000000000

/-- Whether an integer that a decimal equals is small enough to be taken for it. -/
def fitsFloat (n : Int) : Bool := -0x8000000000000000 < n && n < 0x8000000000000000

def asBool : Datum → Checked Bool
  | .bool b => .ok b
  | .text t => boolOfText t
  | .bytes bs =>
    match Utf8.decode bs with
    | .ok t => boolOfText t
    | .error _ => .problem .unknownBool
  | .int n => if fitsInt64 n then boolOfInt n else .problem .notBool
  | .float x =>
    match x.toInt? with
    | some n => if fitsFloat n then boolOfInt n else .problem .notBool
    | none => .problem .notBool
  | _ => .problem .notBool

/-- The digits before a tail of a point and zeros. -/
def dropZeroTail (t : Text) : Text :=
  let whole := t.takeWhile (· ≠ .char '.')
  let zeros := t.drop (whole.length + 1)
  if zeros ≠ [] ∧ zeros.all (· = .char '0') then whole else t

/-- The length of the numeral without leading zeros, a minus sign counting, that a text starts
with. -/
def plainNumeralLength : Text → Nat
  | .char '-' :: rest => if rest.head? = some '0' then 0 else 1 + digitRun rest
  | t => if t.head? = some '0' then 0 else digitRun t
where
  /-- The number of digits that a text starts with. -/
  digitRun (t : Text) : Nat := (t.takeWhile fun c => c.asciiDigit?.isSome).length

/-- The integer that digits with single underscores between them write after a sign. -/
def intOfDigits (negative : Bool) (t : Text) : Checked Int :=
  let digits := t.filter (· ≠ .char '_')
  let n : Int := Numeral.value 10 digits
  if digits = [] ∨ ¬ digits.all (·.asciiDigit?.isSome) ∨ ¬ Numeral.underscoresApart t then
    .problem .unreadableInt
  else if Numeral.maxDigits < (Text.ofInt (if negative then -n else n)).length then
    .problem .unreadableInt
  else .ok (if negative then -n else n)

/-- The integer that a numeral writes; zeros after a point do no harm. -/
def intOfText (text : Text) : Checked Int :=
  if text.any Utf8.isHalf then .problem .notUnicode
  else
    let t := text.trimBoth CodePoint.isSpace
    if Numeral.maxDigits < plainNumeralLength t then .problem .hugeInt
    else match t with
      | .char '-' :: rest => intOfDigits true (dropZeroTail rest)
      | .char '+' :: rest => intOfDigits false (dropZeroTail rest)
      | rest => intOfDigits false (dropZeroTail rest)

def asInt : Datum → Checked Int
  | .int n => .ok n
  | .bool b => .ok (if b then 1 else 0)
  | .text t => intOfText t
  | .bytes bs =>
    match Utf8.decode bs with
    | .ok t => intOfText t
    | .error _ => .problem .unreadableInt
  | .float x =>
    match x with
    | .finite _ _ _ =>
      match x.toInt? with
      | some n => if fitsFloat n then .ok n else .problem .hugeInt
      | none => .problem .fractionalInt
    | _ => .problem .infiniteInt
  | _ => .problem .notInt

end Datum

namespace Checked

/-- Checks on the items of a list from position `index` on. -/
def itemsFrom {α : Type} (check : Datum → Checked α) (index : Nat) :
    List Datum → Checked (List α)
  | [] => .ok []
  | d :: rest =>
    ((check d).within (.index index)).both (itemsFrom check (index + 1) rest) |>.map
      fun (a, more) => a :: more

/-- A check on each item of a list. -/
def listOf {α : Type} (check : Datum → Checked α) (d : Datum) : Checked (List α) :=
  match d.asList with
  | .ok items => itemsFrom check 0 items
  | .error issues => .error issues

end Checked

end ConversionCoverage
