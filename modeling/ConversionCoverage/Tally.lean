import ConversionCoverage.Json
import ConversionCoverage.Percentage
import ConversionCoverage.Record

/-!
# Tallies

How many attempts of each severity there were, and how often each reason was given for those that
did not succeed. Reasons are listed from the most frequent on, and those of equal frequency in
decreasing order.
-/

namespace ConversionCoverage

structure ErrorCount where
  reason : Text
  count : Int
  deriving DecidableEq, Repr

namespace ErrorCount

def toJson (e : ErrorCount) : Json :=
  .object [Json.member "Reason" (.text e.reason), Json.member "Count" (.int e.count)]

/-- Whether one count may stand before another one: it is larger, or equal with a reason that is
no smaller. -/
def precedes (a b : ErrorCount) : Bool :=
  b.count < a.count || (b.count = a.count && Text.le b.reason a.reason)

theorem precedes_trans (a b c : ErrorCount) (h₁ : precedes a b) (h₂ : precedes b c) :
    precedes a c := by
  simp only [precedes, Bool.or_eq_true, Bool.and_eq_true, decide_eq_true_eq] at *
  rcases h₁ with h₁ | ⟨h₁, t₁⟩
  · rcases h₂ with h₂ | ⟨h₂, _⟩ <;> exact .inl (by omega)
  · rcases h₂ with h₂ | ⟨h₂, t₂⟩
    · exact .inl (by omega)
    · exact .inr ⟨by omega, Text.le_trans _ _ _ t₂ t₁⟩

theorem precedes_total (a b : ErrorCount) : precedes a b || precedes b a := by
  simp only [precedes, Bool.or_eq_true, Bool.and_eq_true, decide_eq_true_eq]
  rcases Int.lt_trichotomy a.count b.count with h | h | h
  · exact .inr (.inl h)
  · have := Text.le_total a.reason b.reason
    simp only [Bool.or_eq_true] at this
    rcases this with t | t
    · exact .inr (.inr ⟨h, t⟩)
    · exact .inl (.inr ⟨h.symm, t⟩)
  · exact .inl (.inl h)

end ErrorCount

/-- How often each reason was given, no reason being listed twice. -/
abbrev Histogram := List ErrorCount

namespace Histogram

def add (reason : Text) : Histogram → Histogram
  | [] => [⟨reason, 1⟩]
  | e :: rest =>
    if e.reason = reason then ⟨reason, e.count + 1⟩ :: rest else e :: add reason rest

def count (h : Histogram) (reason : Text) : Int :=
  match h.find? fun e => e.reason = reason with
  | some e => e.count
  | none => 0

/-- The items that a limit lets through: as many from the front, or for a negative limit all but
as many at the end. -/
def limited (limit : Option Int) (counts : List ErrorCount) : List ErrorCount :=
  match limit with
  | none => counts
  | some (.ofNat k) => counts.take k
  | some (.negSucc k) => counts.take (counts.length - (k + 1))

def ranked (h : Histogram) : List ErrorCount := h.mergeSort ErrorCount.precedes

/-- The most frequent reasons. -/
def frequent (h : Histogram) (limit : Option Int) : List ErrorCount := limited limit h.ranked

end Histogram

structure Share where
  number : Nat
  pct : Binary64
  deriving DecidableEq, Repr

namespace Share

def of (number total : Nat) : Share := ⟨number, Percentage.rate number total⟩

def toJson (s : Share) : Json :=
  .object [Json.member "Number" (.int s.number), Json.member "Pct" (.float s.pct)]

end Share

structure Shares where
  successes : Share
  warnings : Share
  failures : Share
  fatals : Share
  deriving DecidableEq, Repr

namespace Shares

/-- The members of a report that hold the shares. -/
def members (s : Shares) : List (Text × Json) := [
  Json.member "Successes" s.successes.toJson,
  Json.member "Warnings" s.warnings.toJson,
  Json.member "Failures" s.failures.toJson,
  Json.member "Fatals" s.fatals.toJson]

end Shares

structure Tally where
  total : Nat
  successes : Nat
  warnings : Nat
  failures : Nat
  fatals : Nat
  errors : Histogram
  deriving DecidableEq, Repr, Inhabited

namespace Tally

def empty : Tally := ⟨0, 0, 0, 0, 0, []⟩

/-- The tally with one more attempt. The detail of an attempt that succeeded is not counted. -/
def add (t : Tally) (a : Attempt) : Tally :=
  match a.severity with
  | .success => { t with total := t.total + 1, successes := t.successes + 1 }
  | .warning =>
    { t with total := t.total + 1, warnings := t.warnings + 1, errors := t.errors.add a.detail }
  | .failure =>
    { t with total := t.total + 1, failures := t.failures + 1, errors := t.errors.add a.detail }
  | .fatal =>
    { t with total := t.total + 1, fatals := t.fatals + 1, errors := t.errors.add a.detail }

def ofAttempts (attempts : List Attempt) : Tally := attempts.foldl add empty

def shares (t : Tally) : Shares :=
  ⟨.of t.successes t.total, .of t.warnings t.total, .of t.failures t.total, .of t.fatals t.total⟩

end Tally

end ConversionCoverage
