import ConversionCoverage.Text.Digit
import ConversionCoverage.Yaml.Cursor
import ConversionCoverage.Yaml.Fault

/-!
# Timestamps

A timestamp is a date, or a date and a time of the day with an optional fraction of a second and an
optional zone: `2001-12-14`, `2001-12-14t21:59:43.10-05:00`, `2001-12-14 21:59:43.10 -5`.
-/

namespace ConversionCoverage.Yaml

/-- The parts of a timestamp as written. -/
structure Timestamp where
  year : Nat
  month : Text
  day : Text
  /-- Hour, minute, second, the digits of the fraction, and the zone as an offset in seconds. -/
  time : Option (Nat × Nat × Nat × Text × Option Int)

namespace Timestamp

private def number (digits : Text) : Nat :=
  (digits.filterMap CodePoint.asciiDigit?).foldl (fun n d => n * 10 + d) 0

/-- The leading ASCII digits of a text, from `least` to `most` of them, and the rest. -/
def digits? (least most : Nat) (t : Text) : Option (Text × Text) :=
  let run := (t.take most).takeWhile fun c => c.asciiDigit?.isSome
  if run.length < least then none else some (run, t.drop run.length)

/-- The text after the given character. -/
def dropChar? (c : Char) (t : Text) : Option Text :=
  match t with
  | .char d :: rest => if c = d then some rest else none
  | _ => none

/-- The zone that a whole text writes: nothing, or blanks and `Z` or a signed offset. -/
def zone? (t : Text) : Option (Option Int) :=
  if t = [] then some none
  else
    let signed (sign : Int) (t : Text) : Option (Option Int) := do
      let (hours, t) ← digits? 1 2 t
      let (minutes, t) ← if t = [] then pure (([] : Text), t) else
        (dropChar? ':' t).bind (digits? 2 2)
      if t = [] then some (some (sign * (number hours * 3600 + number minutes * 60))) else none
    match t.dropWhile isBlank with
    | [.char 'Z'] => some (some 0)
    | .char '+' :: rest => signed 1 rest
    | .char '-' :: rest => signed (-1) rest
    | _ => none

/-- The text of a time of the day after the letter or the blanks that separate it from a date. -/
def dropSeparator? (t : Text) : Option Text :=
  match t with
  | .char 'T' :: rest | .char 't' :: rest => some rest
  | _ =>
    let rest := t.dropWhile isBlank
    if rest.length < t.length then some rest else none

/-- The time of the day and the zone that a text writes to its end. -/
def time? (t : Text) : Option (Nat × Nat × Nat × Text × Option Int) := do
  let (hour, t) ← digits? 1 2 t
  let (minute, t) ← (dropChar? ':' t).bind (digits? 2 2)
  let (second, t) ← (dropChar? ':' t).bind (digits? 2 2)
  let (fraction, t) := match dropChar? '.' t with
    | some t => t.span fun c => c.asciiDigit?.isSome
    | none => ([], t)
  return (number hour, number minute, number second, fraction, ← zone? t)

def ofText? (t : Text) : Option Timestamp := do
  let (year, t) ← digits? 4 4 t
  let (month, t) ← (dropChar? '-' t).bind (digits? 1 2)
  let (day, t) ← (dropChar? '-' t).bind (digits? 1 2)
  let time ← if t = [] then pure none else ((dropSeparator? t).bind time?).map some
  return ⟨number year, month, day, time⟩

/-- Whether a plain scalar that looks like this is a timestamp: a date alone needs two digits for
month and day. -/
def isPlain (t : Timestamp) : Bool :=
  t.time.isSome || (t.month.length == 2 && t.day.length == 2)

/-- The date without a time, if the parts are in range. -/
def toDate (t : Timestamp) : Except Calendar.Fault Date :=
  Calendar.date t.year (number t.month) (number t.day)

/-- The date with the given time, if the parts are in range. Of the fraction six digits count. -/
def toDateTime (t : Timestamp) (hour minute second : Nat) (fraction : Text)
    (zone : Option Int) : Except Calendar.Fault DateTime :=
  let microsecond := number (fraction.take 6 ++ Text.zeros (6 - fraction.length))
  Calendar.dateTime t.year (number t.month) (number t.day) hour minute second microsecond zone

end Timestamp

end ConversionCoverage.Yaml
