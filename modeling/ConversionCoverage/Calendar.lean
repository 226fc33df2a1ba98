import ConversionCoverage.Text

/-!
# Dates and times

Dates of the Gregorian calendar from year 1 on, and times of a day with an optional offset from
universal time.
-/

namespace ConversionCoverage

structure Date where
  year : Nat
  month : Nat
  day : Nat
  deriving DecidableEq, Repr

/-- A time of a day. The offset from universal time is counted in seconds. -/
structure DateTime where
  date : Date
  hour : Nat
  minute : Nat
  second : Nat
  microsecond : Nat
  offset : Option Int
  deriving DecidableEq, Repr

namespace Calendar

/-- The part of a date or a time that lies out of its range. -/
inductive Fault where
  | year (n : Nat)
  | month
  | day
  | hour
  | minute
  | second
  /-- An offset from universal time of a day or more, in seconds. -/
  | offset (seconds : Int)
  deriving DecidableEq, Repr

def isLeap (year : Nat) : Bool := year % 4 == 0 && (year % 100 != 0 || year % 400 == 0)

def daysIn (year month : Nat) : Nat :=
  if month = 2 then if isLeap year then 29 else 28
  else if month = 4 ∨ month = 6 ∨ month = 9 ∨ month = 11 then 30
  else 31

def date (year month day : Nat) : Except Fault Date :=
  if year < 1 ∨ 9999 < year then .error (.year year)
  else if month < 1 ∨ 12 < month then .error .month
  else if day < 1 ∨ daysIn year month < day then .error .day
  else .ok ⟨year, month, day⟩

/-- The time of the given parts. An offset is checked before the date, and the date before the
time of the day. -/
def dateTime (year month day hour minute second microsecond : Nat) (offset : Option Int) :
    Except Fault DateTime := do
  if let some seconds := offset then
    if 86400 ≤ seconds.natAbs then throw (.offset seconds)
  let d ← date year month day
  if 24 ≤ hour then throw .hour
  if 60 ≤ minute then throw .minute
  if 60 ≤ second then throw .second
  return ⟨d, hour, minute, second, microsecond, offset⟩

/-- A span of seconds as days and the seconds of a day, the days rounded down. -/
def spanText (seconds : Int) : Text :=
  let days := seconds.fdiv 86400
  let rest := seconds.fmod 86400
  let parts : List Text :=
    (if days = 0 then [] else ["days=" ++ Text.ofInt days]) ++
      (if rest = 0 then [] else ["seconds=" ++ Text.ofInt rest])
  "datetime.timedelta(" ++ (if parts.isEmpty then ("0" : Text) else Text.join ", " parts) ++ ")"

def Fault.message : Fault → Text
  | .year n => "year " ++ Text.ofNat n ++ " is out of range"
  | .month => "month must be in 1..12"
  | .day => "day is out of range for month"
  | .hour => "hour must be in 0..23"
  | .minute => "minute must be in 0..59"
  | .second => "second must be in 0..59"
  | .offset seconds =>
    "offset must be a timedelta strictly between -timedelta(hours=24) and " ++
      "timedelta(hours=24), not " ++ spanText seconds ++ "."

/-- The number of days from the first of January of year 1 to the start of a year. -/
def daysBefore (year : Nat) : Nat :=
  let y := year - 1
  y * 365 + y / 4 - y / 100 + y / 400

/-- The number of days of a year before a month. -/
def daysBeforeMonth (year month : Nat) : Nat :=
  (List.range (month - 1)).foldl (fun days m => days + daysIn year (m + 1)) 0

end Calendar

namespace Date

def toText (d : Date) : Text :=
  Text.zeroPadded 4 d.year ++ "-" ++ Text.zeroPadded 2 d.month ++ "-" ++ Text.zeroPadded 2 d.day

/-- The form in which a message shows a date among other values. -/
def quoted (d : Date) : Text :=
  "datetime.date(" ++ Text.join ", " ([d.year, d.month, d.day].map Text.ofNat) ++ ")"

def dayNumber (d : Date) : Nat :=
  Calendar.daysBefore d.year + Calendar.daysBeforeMonth d.year d.month + (d.day - 1)

/-- The date with the given day number, up to the end of year 9999. -/
def ofDayNumber (n : Nat) : Date :=
  let year := ((List.range 9999).find? fun y => n < Calendar.daysBefore (y + 2)).getD 9998 + 1
  let first := Calendar.daysBefore year
  let before (month : Nat) : Nat :=
    first + Calendar.daysBeforeMonth year month
  let month := ((List.range 12).find? fun m => n < before (m + 2)).getD 11 + 1
  ⟨year, month, n - before month + 1⟩

end Date

namespace DateTime

/-- The number of the first day of 1970. -/
def epochDay : Nat := 719162

def ofEpochSeconds (seconds : Nat) : DateTime :=
  let time := seconds % 86400
  ⟨.ofDayNumber (epochDay + seconds / 86400), time / 3600, time / 60 % 60, time % 60, 0, none⟩

/-- The offset as a sign, hours and minutes. -/
def offsetText (seconds : Int) : Text :=
  let minutes := seconds.natAbs / 60
  (if seconds < 0 then "-" else "+") ++ Text.zeroPadded 2 (minutes / 60) ++ ":" ++
    Text.zeroPadded 2 (minutes % 60)

/-- Date and time with a blank between them, parts of a second only if there are any. -/
def toText (t : DateTime) : Text :=
  let fraction : Text :=
    if t.microsecond = 0 then [] else "." ++ Text.zeroPadded 6 t.microsecond
  let zone : Text := match t.offset with
    | none => []
    | some seconds => offsetText seconds
  t.date.toText ++ " " ++ Text.zeroPadded 2 t.hour ++ ":" ++ Text.zeroPadded 2 t.minute ++ ":" ++
    Text.zeroPadded 2 t.second ++ fraction ++ zone

/-- The form in which a message shows a time among other values. -/
def quoted (t : DateTime) : Text :=
  let parts := [t.date.year, t.date.month, t.date.day, t.hour, t.minute] ++
    (if t.microsecond ≠ 0 then [t.second, t.microsecond]
      else if t.second ≠ 0 then [t.second] else [])
  let zone : Text := match t.offset with
    | none => []
    | some seconds =>
      if seconds = 0 then ", tzinfo=datetime.timezone.utc"
      else ", tzinfo=datetime.timezone(" ++ Calendar.spanText seconds ++ ")"
  "datetime.datetime(" ++ Text.join ", " (parts.map Text.ofNat) ++ zone ++ ")"

/-- The number of microseconds since the start of year 1, in universal time if there is an
offset. -/
def instant (t : DateTime) : Int :=
  let seconds : Int :=
    ((t.date.dayNumber * 24 + t.hour) * 60 + t.minute) * 60 + t.second - t.offset.getD 0
  seconds * 1000000 + t.microsecond

/-- Whether two times are the same moment; a time with an offset is never one without. -/
def sameMoment (s t : DateTime) : Bool :=
  s.offset.isSome == t.offset.isSome && s.instant == t.instant

end DateTime

end ConversionCoverage
