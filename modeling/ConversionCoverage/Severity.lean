import ConversionCoverage.Datum.Written
import ConversionCoverage.Host
import ConversionCoverage.Text.LetterCase

/-!
# Severities

How well a conversion went, from best to worst. Documents give a severity as its number, as a
decimal equal to the number, as a numeral, or by its name in any case.
-/

namespace ConversionCoverage

inductive Severity where
  | success
  | warning
  | failure
  | fatal
  deriving DecidableEq, Repr, Inhabited

namespace Severity

/-- The number that reports write for a severity. -/
def toNat : Severity → Nat
  | .success => 0
  | .warning => 1
  | .failure => 2
  | .fatal => 3

def name : Severity → Text
  | .success => "SUCCESS"
  | .warning => "WARNING"
  | .failure => "FAILURE"
  | .fatal => "FATAL"

/-- All severities, from best to worst. -/
def all : List Severity := [.success, .warning, .failure, .fatal]

inductive Fault where
  | outOfRange (n : Int)
  /-- Digits that are no numeral. -/
  | numeral (fault : Numeral.Fault)
  | unknown (d : Datum)

/-- The wording of a fault, if the value that it shows is not nested too deeply. A number that is
too long to be written is complained of instead. -/
def Fault.message [Host] : Fault → Except Interruption Text
  | .outOfRange n =>
    match Numeral.write n with
    | .ok shown => .ok (shown ++ " is not a valid ConversionSeverity")
    | .error fault => .ok fault.message
  | .numeral fault => .ok fault.message
  | .unknown d =>
    match d.shown (Host.room .showing) with
    | .ok shown => .ok ("Unknown conversion severity: " ++ shown)
    | .error (.numeral fault) => .ok fault.message
    | .error .tooDeep => .error .tooDeep

def ofInt (n : Int) : Except Fault Severity :=
  match all.find? fun s => n = s.toNat with
  | some s => .ok s
  | none => .error (.outOfRange n)

/-- The severity with the given name, in any case. -/
def ofName? (t : Text) : Option Severity := all.find? fun s => t.toCapitals = s.name

def isDigits (t : Text) : Bool := !t.isEmpty && t.all CodePoint.isDigit

/-- The severity that a text names or numbers, blanks around it aside. -/
def ofText (t : Text) : Except Fault Severity :=
  let stripped := t.strip
  if isDigits stripped then
    match Numeral.read 10 stripped with
    | .ok n => ofInt n
    | .error fault => .error (.numeral fault)
  else
    match ofName? stripped with
    | some s => .ok s
    | none => .error (.unknown (.text t))

def ofDatum : Datum → Except Fault Severity
  | .int n => ofInt n
  | .float x =>
    match x.toInt? with
    | some n => ofInt n
    | none => .error (.unknown (.float x))
  | .text t => ofText t
  | d => .error (.unknown d)

theorem toNat_inj {s t : Severity} : s.toNat = t.toNat ↔ s = t := by
  cases s <;> cases t <;> decide

theorem ofInt_eq_ok_iff {n : Int} {s : Severity} : ofInt n = .ok s ↔ n = s.toNat := by
  unfold ofInt
  constructor
  · intro h
    split at h
    · rename_i found hf
      obtain rfl : found = s := by simpa using h
      simpa using List.find?_some hf
    · cases h
  · rintro rfl
    cases s <;> rfl

end Severity

end ConversionCoverage
