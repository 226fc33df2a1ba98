import ConversionCoverage.Json
import ConversionCoverage.Severity

/-!
# Conversion records

A provider's examples and the attempts to convert them into target languages. Within a record an
example is known by its name.
-/

namespace ConversionCoverage

/-- An attempt to convert an example into a language. The detail tells why it did not succeed. -/
structure Attempt where
  language : Text
  severity : Severity
  detail : Text
  multiple : Bool
  deriving DecidableEq, Repr, Inhabited

namespace Attempt

/-- Whether the attempt went without any issue. -/
def succeeded (a : Attempt) : Bool := a.severity = .success

def toJson (a : Attempt) : Json :=
  .object [
    Json.member "TargetLanguage" (.text a.language),
    Json.member "FailureSeverity" a.severity.toNat,
    Json.member "FailureInfo" (.text a.detail),
    Json.member "MultipleTranslations" (.bool a.multiple)]

end Attempt

structure Example where
  name : Text
  source : Text
  attempts : List Attempt
  deriving DecidableEq, Repr, Inhabited

namespace Example

def isDuplicated (e : Example) : Bool := e.attempts.any (·.multiple)

/-- The attempts that did not succeed, in the order in which they were made. -/
def failedAttempts (e : Example) : List Attempt := e.attempts.filter (!·.succeeded)

def hasFailures (e : Example) : Bool := e.attempts.any (!·.succeeded)

theorem hasFailures_iff (e : Example) : e.hasFailures = true ↔ e.failedAttempts ≠ [] := by
  simp [hasFailures, failedAttempts, List.filter_eq_nil_iff]

end Example

/-- All that is known of a provider's conversions. -/
structure Record where
  provider : Text
  version : Text
  examples : List Example
  /-- No two examples have one name. -/
  names_nodup : (examples.map Example.name).Nodup

namespace Record

/-- The examples in the order of their names. -/
def sortedExamples (r : Record) : List Example :=
  r.examples.mergeSort fun a b => Text.le a.name b.name

/-- Every attempt of every example, the examples in the order of their names. -/
def conversions (r : Record) : List Attempt := r.sortedExamples.flatMap Example.attempts

theorem sortedExamples_perm (r : Record) : r.sortedExamples.Perm r.examples :=
  List.mergeSort_perm _ _

theorem pairwise_sortedExamples (r : Record) :
    r.sortedExamples.Pairwise fun a b => Text.le a.name b.name :=
  List.pairwise_mergeSort (fun a b c => Text.le_trans a.name b.name c.name)
    (fun a b => Text.le_total a.name b.name) _

theorem conversions_perm (r : Record) :
    r.conversions.Perm (r.examples.flatMap Example.attempts) :=
  r.sortedExamples_perm.flatMap_right _

end Record

end ConversionCoverage
